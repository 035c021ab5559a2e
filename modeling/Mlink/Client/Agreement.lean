/-
# When client and session agree

The last announcement of a room that is on its way to the client is right, because a
session announces a room with every change of its subscription. A room of which nothing
is on its way, in either direction, is as the client has written it. That leaves the
continuations that are still to run, and the rooms that are to be asked for again at the
first `ready`: until then each of them is owed a request.
-/

import Mlink.Client.Rooms
import Mlink.Lib.Transition

namespace Mlink.Client

open Mlink.Daemon
open Transition

/-! ## What a queue of frames announces -/

/-- The last word on a room in a queue of frames. -/
def announced (room : String) (frames : List ToClient) : Option Bool :=
  frames.reverse.findSome? (ToClient.stateOf room)

@[simp]
theorem announced_nil (room : String) : announced room [] = none := rfl

theorem announced_append (room : String) (frames more : List ToClient) :
    announced room (frames ++ more) = (announced room more).or (announced room frames) := by
  rw [announced, List.reverse_append, List.findSome?_append, announced, announced]

theorem announced_cons (room : String) (frame : ToClient) (rest : List ToClient) :
    announced room (frame :: rest) = (announced room rest).or (frame.stateOf room) := by
  have hsingle : announced room [frame] = frame.stateOf room := by
    simp [announced, List.findSome?_cons]
    cases frame.stateOf room with
    | none => rfl
    | some joined => rfl
  rw [← List.singleton_append, announced_append, hsingle]

/-- The announcement of every room that is subscribed to says so. -/
theorem announced_map_roomState (room : String) (order : List String) :
    announced room (order.map fun room => .roomState room true) =
      if room ∈ order then some true else none := by
  induction order with
  | nil => rfl
  | cons other rest ih =>
      rw [List.map_cons, announced_cons, ih, ToClient.stateOf]
      by_cases hsame : other = room
      · rw [if_pos hsame, hsame, if_pos List.mem_cons_self]
        split_ifs
        · rfl
        · rfl
      · simp [hsame, Ne.symm hsame]

theorem mem_writeRoom (rooms : List String) (room : String) (joins : Bool) (other : String) :
    other ∈ writeRoom rooms room joins ↔
      if other = room then joins = true else other ∈ rooms := by
  rw [writeRoom]
  by_cases hsame : other = room
  · rw [if_pos hsame, hsame]
    split_ifs with hjoins hmem
    · exact iff_of_true hmem hjoins
    · exact iff_of_true (by simp) hjoins
    · exact iff_of_false (by simp) hjoins
  · rw [if_neg hsame]
    split_ifs
    · rfl
    · simp [hsame]
    · simp [hsame]

theorem validRoomCode_of_mem_writeRoom {rooms : List String} {room : String} {joins : Bool}
    (hrooms : ∀ other ∈ rooms, validRoomCode other = true) (hroom : validRoomCode room = true) :
    ∀ other ∈ writeRoom rooms room joins, validRoomCode other = true := by
  intro other hother
  rw [mem_writeRoom] at hother
  split_ifs at hother with hsame
  · rw [hsame]
    exact hroom
  · exact hrooms other hother

/-! ## What every step keeps -/

/-- Every acknowledgement of a request is followed by an announcement of its room. -/
def PendingRequest.Answered (request : PendingRequest) : List ToClient → Prop
  | [] => True
  | frame :: rest =>
      (frame = .ack request.id → (announced request.room rest).isSome = true) ∧
        request.Answered rest

/-- The request that is waited for is the one that is on its way. -/
structure PendingRequest.Tracked (request : PendingRequest) (channel : Channel) : Prop where
  named : ∀ joins room, .request request.id joins room ∈ channel.toDaemon → room = request.room
  answered : request.Answered channel.toClient

/-- A client writes the codes of rooms only, and its ids are fresh. -/
structure ClientRooms.Valid (client : ClientRooms) : Prop where
  rooms : ∀ room ∈ client.joinedRooms, validRoomCode room = true
  continuations : ∀ continuation ∈ client.continuations, validRoomCode continuation.room = true
  pending : ∀ request ∈ client.pending, request.id < client.nextId

/-- The last word that is on its way to the client is right. A room of which there is no
word and no request, and that is not owed one, is written as it is at both ends. -/
structure Connection.Sound (connection : Connection) (owed : List String) : Prop where
  valid : connection.client.Valid
  subs : ∀ room ∈ connection.channel.subs, validRoomCode room = true
  announced : ∀ room joined, announced room connection.channel.toClient = some joined →
    validRoomCode room = true ∧ (joined = true ↔ room ∈ connection.channel.subs)
  requests : ∀ id joins room, .request id joins room ∈ connection.channel.toDaemon →
    id < connection.client.nextId
  acks : ∀ id, .ack id ∈ connection.channel.toClient → id < connection.client.nextId
  tracked : ∀ request ∈ connection.client.pending, request.Tracked connection.channel
  agrees : ∀ room ∉ owed, Client.announced room connection.channel.toClient = none →
    (∀ id joins, .request id joins room ∉ connection.channel.toDaemon) →
      (room ∈ connection.client.joinedRooms ↔ room ∈ connection.channel.subs) ∧
        ∀ continuation ∈ connection.client.continuations, continuation.room = room →
          (continuation.joins = true ↔ room ∈ connection.channel.subs)

theorem PendingRequest.Answered.append {request : PendingRequest} {frames more : List ToClient}
    (hframes : request.Answered frames) (hmore : request.Answered more) :
    request.Answered (frames ++ more) := by
  induction frames with
  | nil => exact hmore
  | cons frame rest ih =>
      refine ⟨?_, ih hframes.2⟩
      intro hack
      have hsome : (announced request.room (rest ++ more)).isSome = true := by
        rw [announced_append, Option.isSome_or, hframes.1 hack, Bool.or_true]
      exact hsome

/-- A request whose id is new has not been acknowledged. -/
theorem PendingRequest.answered_of_fresh {request : PendingRequest} {frames : List ToClient}
    (hfresh : .ack request.id ∉ frames) : request.Answered frames := by
  induction frames with
  | nil => trivial
  | cons frame rest ih =>
      refine ⟨?_, ih fun hmem => hfresh (List.mem_cons_of_mem _ hmem)⟩
      intro hack
      exact absurd (by rw [hack]; exact List.mem_cons_self) hfresh

namespace ClientRooms

variable {client : ClientRooms}

theorem runContinuation_of_nil (hnone : client.continuations = []) :
    client.runContinuation = client := by
  rw [runContinuation, hnone]

/-- A continuation writes the code of a room. -/
theorem Valid.runContinuation (valid : client.Valid) : client.runContinuation.Valid := by
  rw [ClientRooms.runContinuation]
  cases hcontinuations : client.continuations with
  | nil => exact valid
  | cons next rest =>
      have hall := valid.continuations
      rw [hcontinuations] at hall
      exact
        { rooms := validRoomCode_of_mem_writeRoom valid.rooms (hall next List.mem_cons_self)
          continuations := fun continuation hmem =>
            hall continuation (List.mem_cons_of_mem _ hmem)
          pending := valid.pending }

end ClientRooms

namespace Connection

variable {connection : Connection} {owed : List String}

/-- On a new socket every room of the client is owed a request. -/
theorem sound_new {client : ClientRooms} (valid : client.Valid)
    (hidle : client.continuations = []) : Sound ⟨client, .new⟩ client.joinedRooms where
  valid := valid
  subs := nofun
  announced _ _ hword := by cases hword
  requests _ _ _ hrequest := by cases List.mem_singleton.mp hrequest
  acks _ hack := by cases List.mem_singleton.mp hack
  tracked request _ :=
    { named := fun _ _ hsent => by cases List.mem_singleton.mp hsent
      answered := PendingRequest.answered_of_fresh fun hack => by
        cases List.mem_singleton.mp hack }
  agrees room hroom _ _ := by
    refine ⟨iff_of_false hroom (Finset.notMem_empty room), ?_⟩
    rw [hidle]
    exact nofun

/-- A request for a room settles what is owed to this room, and to no other. -/
theorem Sound.request (sound : connection.Sound owed) (joins : Bool) (room : String)
    (continues : Bool) {left : List String} (hleft : ∀ other ∈ owed, other = room ∨ other ∈ left) :
    (connection.request joins room continues).Sound left where
  valid :=
    { rooms := sound.valid.rooms
      continuations := sound.valid.continuations
      pending := by
        intro request hrequest
        rcases List.mem_append.mp hrequest with hold | hnew
        · exact Nat.lt_succ_of_lt (sound.valid.pending request hold)
        · rw [List.mem_singleton.mp hnew]
          exact Nat.lt_succ_self _ }
  subs := sound.subs
  announced := sound.announced
  requests id joins other hrequest := by
    rcases List.mem_append.mp hrequest with hold | hnew
    · exact Nat.lt_succ_of_lt (sound.requests id joins other hold)
    · cases List.mem_singleton.mp hnew
      exact Nat.lt_succ_self _
  acks id hack := Nat.lt_succ_of_lt (sound.acks id hack)
  tracked request hrequest := by
    rcases List.mem_append.mp hrequest with hold | hnew
    · have htracked := sound.tracked request hold
      refine ⟨?_, htracked.answered⟩
      intro joins other hsent
      rcases List.mem_append.mp hsent with hbefore | hnow
      · exact htracked.named joins other hbefore
      · have hid := (ToDaemon.request.inj (List.mem_singleton.mp hnow)).1
        exact absurd hid (Nat.ne_of_lt (sound.valid.pending request hold))
    · rw [List.mem_singleton.mp hnew]
      refine ⟨?_, PendingRequest.answered_of_fresh ?_⟩
      · intro joins other hsent
        rcases List.mem_append.mp hsent with hbefore | hnow
        · exact absurd (sound.requests _ joins other hbefore) (Nat.lt_irrefl _)
        · cases List.mem_singleton.mp hnow
          rfl
      · intro hack
        exact Nat.lt_irrefl _ (sound.acks _ hack)
  agrees other hother hannounced hrequests := by
    have hdifferent : other ≠ room := by
      intro hsame
      rw [hsame] at hrequests
      exact hrequests connection.client.nextId joins (by simp [Connection.request])
    have howed : other ∉ owed := by
      intro hmem
      rcases hleft other hmem with hsame | hstill
      · exact hdifferent hsame
      · exact hother hstill
    apply sound.agrees other howed hannounced
    intro id joins hmem
    exact hrequests id joins (List.mem_append_left _ hmem)

/-- The first `ready` asks for every room that was owed a request. -/
theorem Sound.rejoin (sound : connection.Sound connection.client.joinedRooms) :
    connection.rejoin.Sound [] := by
  have hfold : ∀ (rooms : List String) (connection : Connection), connection.Sound rooms →
      (rooms.foldl (fun connection room => connection.request true room false) connection).Sound
        [] := by
    intro rooms
    induction rooms with
    | nil => exact fun _ sound => sound
    | cons room rest ih =>
        intro connection sound
        exact ih _ (sound.request true room false fun _ hmem => List.mem_cons.mp hmem)
  apply hfold
  exact
    { sound with
      tracked := by
        intro request hrequest
        have htracked := sound.tracked request hrequest
        exact ⟨htracked.named, htracked.answered⟩ }

/-- What is tracked stays so while the queue is worked off. -/
theorem Sound.tracked_tail (sound : connection.Sound owed) {frame : ToClient}
    {rest : List ToClient} (hframes : connection.channel.toClient = frame :: rest) :
    ∀ request ∈ connection.client.pending,
      request.Tracked { connection.channel with toClient := rest } := by
  intro request hrequest
  obtain ⟨hnamed, hanswered⟩ := sound.tracked request hrequest
  rw [hframes] at hanswered
  exact ⟨hnamed, hanswered.2⟩

theorem Sound.acks_tail (sound : connection.Sound owed) {frame : ToClient} {rest : List ToClient}
    (hframes : connection.channel.toClient = frame :: rest) :
    ∀ id, .ack id ∈ rest → id < connection.client.nextId := by
  intro id hack
  apply sound.acks id
  rw [hframes]
  exact List.mem_cons_of_mem _ hack

/-- A frame is taken off the queue whose word is taken, where it says one. -/
theorem Sound.pop (sound : connection.Sound owed) {frame : ToClient} {rest : List ToClient}
    (hframes : connection.channel.toClient = frame :: rest)
    (hsilent : ∀ room, frame.stateOf room = none) :
    Sound { connection with channel := { connection.channel with toClient := rest } } owed := by
  have hsame : ∀ room, Client.announced room connection.channel.toClient =
      Client.announced room rest := by
    intro room
    rw [hframes, announced_cons, hsilent room, Option.or_none]
  exact
    { valid := sound.valid
      subs := sound.subs
      announced := by
        intro room joined hrest
        exact sound.announced room joined ((hsame room).trans hrest)
      requests := sound.requests
      acks := sound.acks_tail hframes
      tracked := sound.tracked_tail hframes
      agrees := by
        intro room hroom hrest
        exact sound.agrees room hroom ((hsame room).trans hrest) }

/-- To stop waiting for a request changes nothing else. -/
theorem Sound.forget (sound : connection.Sound owed) (id : Nat) :
    Sound { connection with client := connection.client.forget id } owed where
  valid :=
    { rooms := sound.valid.rooms
      continuations := sound.valid.continuations
      pending := fun request hrequest =>
        sound.valid.pending request (List.mem_of_mem_filter hrequest) }
  subs := sound.subs
  announced := sound.announced
  requests := sound.requests
  acks := sound.acks
  tracked request hrequest := sound.tracked request (List.mem_of_mem_filter hrequest)
  agrees := sound.agrees

/-- An acknowledgement leaves a continuation only for a room that is announced next. -/
theorem Sound.acknowledge (sound : connection.Sound owed) {id : Nat} {rest : List ToClient}
    (hframes : connection.channel.toClient = .ack id :: rest) :
    Sound
      { client := connection.client.acknowledge id
        channel := { connection.channel with toClient := rest } } owed := by
  have hpopped := sound.pop hframes fun _ => rfl
  have hforgot := hpopped.forget id
  rw [ClientRooms.acknowledge]
  cases hfind : connection.client.pending.find? fun request => request.id = id with
  | none => exact hpopped
  | some request =>
      have hid : request.id = id := by simpa using List.find?_some hfind
      have hmem := List.mem_of_find?_eq_some hfind
      have hanswered := (sound.tracked request hmem).answered
      rw [hframes] at hanswered
      obtain ⟨joined, hjoined⟩ := Option.isSome_iff_exists.mp (hanswered.1 (by rw [hid]))
      dsimp only
      split_ifs with hcontinues
      · exact
          { hforgot with
            valid :=
              { hforgot.valid with
                continuations := by
                  intro continuation hcontinuation
                  rcases List.mem_append.mp hcontinuation with hold | hnew
                  · exact sound.valid.continuations continuation hold
                  · rw [List.mem_singleton.mp hnew]
                    exact (hpopped.announced request.room joined hjoined).1 }
            agrees := by
              intro room hroom hannounced hrequests
              obtain ⟨hsame, hcontinuations⟩ := hpopped.agrees room hroom hannounced hrequests
              refine ⟨hsame, ?_⟩
              intro continuation hcontinuation hthis
              rcases List.mem_append.mp hcontinuation with hold | hnew
              · exact hcontinuations continuation hold hthis
              · rw [List.mem_singleton.mp hnew] at hthis
                rw [← hthis] at hannounced
                rw [hannounced] at hjoined
                cases hjoined }
      · exact hforgot

/-- An announcement is written, and no continuation says otherwise of its room. -/
theorem Sound.roomState (sound : connection.Sound owed) {room : String} {joined : Bool}
    {rest : List ToClient} (hframes : connection.channel.toClient = .roomState room joined :: rest)
    (hinOrder : ∀ continuation ∈ connection.client.continuations, continuation.room = room →
      joined = continuation.joins) :
    Sound
      { client :=
          { connection.client with
            joinedRooms := writeRoom connection.client.joinedRooms room joined }
        channel := { connection.channel with toClient := rest } } owed := by
  have hlater : ∀ other, Client.announced other connection.channel.toClient =
      (Client.announced other rest).or (if room = other then some joined else none) := by
    intro other
    rw [hframes, announced_cons]
    rfl
  have hvalid : validRoomCode room = true := by
    cases hword : Client.announced room rest with
    | none => exact (sound.announced room joined (by rw [hlater, hword, if_pos rfl]; rfl)).1
    | some later => exact (sound.announced room later (by rw [hlater, hword]; rfl)).1
  exact
    { valid :=
        { rooms := validRoomCode_of_mem_writeRoom sound.valid.rooms hvalid
          continuations := sound.valid.continuations
          pending := sound.valid.pending }
      subs := sound.subs
      announced := by
        intro other later hrest
        apply sound.announced other later
        have hword : Client.announced other rest = some later := hrest
        rw [hlater, hword]
        rfl
      requests := sound.requests
      acks := sound.acks_tail hframes
      tracked := sound.tracked_tail hframes
      agrees := by
        intro other hother hrest hrequests
        have hword : Client.announced other rest = none := hrest
        dsimp only
        rw [mem_writeRoom]
        split_ifs with hsame
        · have hright := (sound.announced other joined
            (by rw [hlater, hword, if_pos hsame.symm]; rfl)).2
          refine ⟨hright, ?_⟩
          intro continuation hcontinuation hthis
          rw [← hinOrder continuation hcontinuation (by rw [hthis, hsame])]
          exact hright
        · have hnone : Client.announced other connection.channel.toClient = none := by
            rw [hlater, hword, if_neg (Ne.symm hsame)]
            rfl
          exact sound.agrees other hother hnone hrequests }

/-- A continuation that runs says what is written at both ends, or there is more to come. -/
theorem Sound.runContinuation (sound : connection.Sound owed) :
    Sound { connection with client := connection.client.runContinuation } owed := by
  have hvalid := sound.valid.runContinuation
  rw [ClientRooms.runContinuation] at hvalid ⊢
  cases hcontinuations : connection.client.continuations with
  | nil => exact sound
  | cons next rest =>
      rw [hcontinuations] at hvalid
      exact
        { sound with
          valid := hvalid
          agrees := by
            intro room hroom hannounced hrequests
            obtain ⟨hsame, hrun⟩ := sound.agrees room hroom hannounced hrequests
            rw [hcontinuations] at hrun
            dsimp only
            rw [mem_writeRoom]
            refine ⟨?_, fun continuation hmem =>
              hrun continuation (List.mem_cons_of_mem _ hmem)⟩
            split_ifs with hthis
            · exact hrun next List.mem_cons_self hthis.symm
            · exact hsame }

/-- Frames are put in the queue whose word on any room is right, and that acknowledge
nothing. -/
theorem Sound.push (sound : connection.Sound owed) {frames : List ToClient}
    (hright : ∀ room joined, Client.announced room frames = some joined →
      validRoomCode room = true ∧ (joined = true ↔ room ∈ connection.channel.subs))
    (hacks : ∀ id, .ack id ∉ frames) :
    Sound
      { connection with
        channel :=
          { connection.channel with toClient := connection.channel.toClient ++ frames } } owed where
  valid := sound.valid
  subs := sound.subs
  announced room joined hword := by
    rw [announced_append] at hword
    rcases Option.or_eq_some_iff.mp hword with hnew | ⟨_, hold⟩
    · exact hright room joined hnew
    · exact sound.announced room joined hold
  requests := sound.requests
  acks id hack := by
    rcases List.mem_append.mp hack with hold | hnew
    · exact sound.acks id hold
    · exact absurd hnew (hacks id)
  tracked request hrequest := by
    obtain ⟨hnamed, hanswered⟩ := sound.tracked request hrequest
    exact ⟨hnamed, hanswered.append (PendingRequest.answered_of_fresh (hacks _))⟩
  agrees room hroom hword := by
    rw [announced_append] at hword
    exact sound.agrees room hroom (Option.or_eq_none_iff.mp hword).2

/-- A peer that comes or goes has the session say again what it is subscribed to. -/
theorem Sound.peerEvent (sound : connection.Sound owed) (order : List String) :
    Sound { connection with channel := connection.channel.peerEvent order } owed := by
  rw [Channel.peerEvent]
  split_ifs with horder
  · apply sound.push
    · intro room joined hword
      rw [announced_map_roomState] at hword
      split_ifs at hword with hroom
      cases hword
      have hsubscribed : room ∈ connection.channel.subs := by
        rw [← horder.2, List.mem_toFinset]
        exact hroom
      exact ⟨sound.subs room hsubscribed, iff_of_true rfl hsubscribed⟩
    · intro id hack
      obtain ⟨room, _, hroom⟩ := List.mem_map.mp hack
      cases hroom
  · exact sound

/-- A frame is taken that is no request for a room that could be joined. -/
theorem Sound.take (sound : connection.Sound owed) {frame : ToDaemon} {rest : List ToDaemon}
    (hframes : connection.channel.toDaemon = frame :: rest)
    (hrefused : ∀ id joins room, frame = .request id joins room → validRoomCode room ≠ true) :
    Sound { connection with channel := { connection.channel with toDaemon := rest } } owed where
  valid := sound.valid
  subs := sound.subs
  announced := sound.announced
  requests id joins room hrequest := by
    apply sound.requests id joins room
    rw [hframes]
    exact List.mem_cons_of_mem _ hrequest
  acks := sound.acks
  tracked request hrequest := by
    obtain ⟨hnamed, hanswered⟩ := sound.tracked request hrequest
    refine ⟨?_, hanswered⟩
    intro joins room hsent
    apply hnamed joins room
    rw [hframes]
    exact List.mem_cons_of_mem _ hsent
  agrees room hroom hannounced hrequests := by
    by_cases hvalid : validRoomCode room = true
    · apply sound.agrees room hroom hannounced
      intro id joins hmem
      rw [hframes] at hmem
      rcases List.mem_cons.mp hmem with hhead | hlater
      · exact hrefused id joins room hhead.symm hvalid
      · exact hrequests id joins hlater
    · refine ⟨?_, ?_⟩
      · apply iff_of_false
        · exact fun hmem => hvalid (sound.valid.rooms room hmem)
        · exact fun hmem => hvalid (sound.subs room hmem)
      · intro continuation hcontinuation hthis
        have hcode := sound.valid.continuations continuation hcontinuation
        rw [hthis] at hcode
        exact absurd hcode hvalid

/-- A request that is taken is acknowledged, and its room announced as it is then. -/
theorem Sound.grant (sound : connection.Sound owed) {id : Nat} {joins : Bool} {room : String}
    {rest : List ToDaemon}
    (hframes : connection.channel.toDaemon = .request id joins room :: rest)
    (hvalid : validRoomCode room = true) :
    Sound
      { connection with
        channel :=
          { connection.channel with
            toDaemon := rest
            toClient := connection.channel.toClient ++ [.ack id, .roomState room joins]
            subs := if joins then insert room connection.channel.subs
              else connection.channel.subs.erase room } } owed := by
  have hmem : ∀ other, (other ∈ if joins then insert room connection.channel.subs
      else connection.channel.subs.erase room) ↔
        if other = room then joins = true else other ∈ connection.channel.subs := by
    intro other
    by_cases hsame : other = room
    · cases joins with
      | true => simp [hsame]
      | false => simp [hsame]
    · cases joins with
      | true => simp [hsame]
      | false => simp [hsame]
  have hlater : ∀ other, Client.announced other
      (connection.channel.toClient ++ [.ack id, .roomState room joins]) =
        (if room = other then some joins else none).or
          (Client.announced other connection.channel.toClient) := by
    intro other
    rw [announced_append, announced_cons, announced_cons, announced_nil]
    simp only [ToClient.stateOf, Option.none_or, Option.or_none]
  have hhead : ∀ later, later ∈ rest → later ∈ connection.channel.toDaemon := by
    intro later hlater
    rw [hframes]
    exact List.mem_cons_of_mem _ hlater
  have hsent : .request id joins room ∈ connection.channel.toDaemon := by
    rw [hframes]
    exact List.mem_cons_self
  exact
    { valid := sound.valid
      subs := by
        intro other hother
        rw [hmem] at hother
        split_ifs at hother with hsame
        · rw [hsame]
          exact hvalid
        · exact sound.subs other hother
      announced := by
        intro other joined hword
        rw [hlater] at hword
        rw [hmem]
        split_ifs at hword with hsame
        · cases hword
          rw [← hsame, if_pos rfl]
          exact ⟨hvalid, Iff.rfl⟩
        · rw [if_neg (Ne.symm hsame)]
          exact sound.announced other joined hword
      requests := fun other joins room hother => sound.requests other joins room (hhead _ hother)
      acks := by
        intro other hack
        rcases List.mem_append.mp hack with hold | hnew
        · exact sound.acks other hold
        · have hid : other = id := by simpa using hnew
          rw [hid]
          exact sound.requests id joins room hsent
      tracked := by
        intro request hrequest
        obtain ⟨hnamed, hanswered⟩ := sound.tracked request hrequest
        refine ⟨fun joins room hother => hnamed joins room (hhead _ hother), hanswered.append ?_⟩
        refine ⟨?_, ?_, trivial⟩
        · intro hack
          have hid : id = request.id := ToClient.ack.inj hack
          have hroom : room = request.room := hnamed joins room (by rw [← hid]; exact hsent)
          rw [announced_cons, ToClient.stateOf, if_pos hroom]
          rfl
        · intro hack
          cases hack
      agrees := by
        intro other hother hword hrequests
        rw [hlater] at hword
        obtain ⟨hnew, hold⟩ := Option.or_eq_none_iff.mp hword
        have hdifferent : room ≠ other := by
          intro hsame
          rw [if_pos hsame] at hnew
          cases hnew
        have hbefore : ∀ id joins, .request id joins other ∉ connection.channel.toDaemon := by
          intro id joins hrequest
          rw [hframes] at hrequest
          rcases List.mem_cons.mp hrequest with hthis | hlater
          · exact hdifferent (ToDaemon.request.inj hthis).2.2.symm
          · exact hrequests id joins hlater
        rw [hmem, if_neg (Ne.symm hdifferent)]
        exact sound.agrees other hother hold hbefore }

/-- Whatever the session handles, its last word is right. -/
theorem Sound.serve (sound : connection.Sound owed) (oversize : Bool) :
    Sound { connection with channel := connection.channel.serve oversize } owed := by
  rw [Channel.serve]
  cases hframes : connection.channel.toDaemon with
  | nil => exact sound
  | cons frame rest =>
      cases frame with
      | hello =>
          have htaken := sound.take hframes fun _ _ _ hrequest => by cases hrequest
          have hready : ∀ id, (.ack id : ToClient) ∉ [.ready] := by simp
          exact htaken.push nofun hready
      | request id joins room =>
          by_cases hvalid : validRoomCode room = true
          · have hanswer : Channel.answer connection.channel.subs oversize
                (.request id joins room) = ([.ack id, .roomState room joins],
                  if joins then insert room connection.channel.subs
                  else connection.channel.subs.erase room) := if_pos hvalid
            simp only [hanswer]
            exact sound.grant hframes hvalid
          · have hanswer : Channel.answer connection.channel.subs oversize
                (.request id joins room) =
                  ([.error (if oversize then none else some id)], connection.channel.subs) :=
              if_neg hvalid
            have htaken := sound.take hframes fun _ _ other hrequest => by
              cases hrequest
              exact hvalid
            have herror : ∀ other, (.ack other : ToClient) ∉
                [.error (if oversize then none else some id)] := by simp
            simp only [hanswer]
            exact htaken.push nofun herror

theorem ready_rejoin : connection.rejoin.channel.ready = true := by
  have hfold : ∀ (rooms : List String) (connection : Connection),
      (rooms.foldl (fun connection room => connection.request true room false)
        connection).channel.ready = connection.channel.ready := by
    intro rooms
    induction rooms with
    | nil => exact fun _ => rfl
    | cons room rest ih => exact fun connection => ih (connection.request true room false)
  exact hfold _ _

/-- The first frame on a socket is `ready`. -/
theorem Sound.receive_first (sound : connection.Sound connection.client.joinedRooms)
    (hfirst : connection.channel.toClient.head? = some .ready)
    (hunready : connection.channel.ready = false) :
    connection.receive.Sound [] ∧ connection.receive.channel.ready = true := by
  obtain ⟨rest, hframes⟩ := List.head?_eq_some_iff.mp hfirst
  have hpopped := sound.pop hframes fun _ => rfl
  have hrejoin : connection.receive = Connection.rejoin
      { connection with channel := { connection.channel with toClient := rest } } := by
    rw [receive, hframes]
    exact if_neg (by rw [hunready]; exact nofun)
  rw [hrejoin]
  exact ⟨hpopped.rejoin, ready_rejoin⟩

/-- Any later frame is handled in order. -/
theorem Sound.receive (sound : connection.Sound owed) (hready : connection.channel.ready = true)
    (hinOrder : ∀ frame ∈ connection.channel.toClient.head?,
      ∀ continuation ∈ connection.client.continuations,
        ∀ joined ∈ frame.stateOf continuation.room, joined = continuation.joins) :
    connection.receive.Sound owed ∧ connection.receive.channel.ready = true := by
  cases hframes : connection.channel.toClient with
  | nil =>
      rw [Connection.receive, hframes]
      exact ⟨sound, hready⟩
  | cons frame rest =>
      rw [Connection.receive, hframes]
      cases frame with
      | ready =>
          dsimp only [handleFrame]
          rw [if_pos hready]
          exact ⟨sound.pop hframes fun _ => rfl, hready⟩
      | ack id => exact ⟨sound.acknowledge hframes, hready⟩
      | error id =>
          have hpopped := sound.pop hframes fun _ => rfl
          cases id with
          | none => exact ⟨hpopped, hready⟩
          | some id => exact ⟨hpopped.forget id, hready⟩
      | roomState room joined =>
          refine ⟨sound.roomState hframes ?_, hready⟩
          intro continuation hcontinuation hroom
          apply hinOrder (.roomState room joined) (by rw [hframes]; rfl) continuation hcontinuation
          rw [ToClient.stateOf, if_pos hroom.symm]
          rfl

end Connection

namespace Channel

variable (channel : Channel)

theorem ready_serve (oversize : Bool) : (channel.serve oversize).ready = channel.ready := by
  rw [serve]
  cases channel.toDaemon with
  | nil => rfl
  | cons frame rest => rfl

theorem ready_peerEvent (order : List String) :
    (channel.peerEvent order).ready = channel.ready := by
  rw [peerEvent]
  split_ifs
  · rfl
  · rfl

/-- What is put in the queue comes after what is there. -/
theorem head?_serve {frame : ToClient} (hfirst : channel.toClient.head? = some frame)
    (oversize : Bool) : (channel.serve oversize).toClient.head? = some frame := by
  rw [serve]
  cases channel.toDaemon with
  | nil => exact hfirst
  | cons request rest => simp only [List.head?_append, hfirst, Option.some_or]

theorem head?_peerEvent {frame : ToClient} (hfirst : channel.toClient.head? = some frame)
    (order : List String) : (channel.peerEvent order).toClient.head? = some frame := by
  rw [peerEvent]
  split_ifs
  · simp only [List.head?_append, hfirst, Option.some_or]
  · exact hfirst

end Channel

namespace RoomSync

/-- The connection is sound; before `ready`, every room of the client is owed a request,
and no continuation is left to run. -/
structure Inv (sync : RoomSync) : Prop where
  valid : sync.client.Valid
  sound : ∀ channel ∈ sync.ws,
    Connection.Sound ⟨sync.client, channel⟩
      (if channel.ready then [] else sync.client.joinedRooms)
  unready : ∀ channel ∈ sync.ws, channel.ready = false →
    sync.client.continuations = [] ∧ channel.toClient.head? = some .ready

variable {sync : RoomSync}

theorem inv_start : start.Inv where
  valid := ⟨nofun, nofun, nofun⟩
  sound := nofun
  unready := nofun

/-- Where nothing is on its way, what the client has written is what its session has. -/
theorem Inv.agrees (inv : sync.Inv) : sync.Agrees := by
  intro channel hws hready hrequests hframes
  have hsound := inv.sound channel hws
  rw [if_pos hready] at hsound
  ext room
  rw [List.mem_toFinset]
  apply (hsound.agrees room List.not_mem_nil _ _).1
  · rw [hframes]
    rfl
  · intro id joins
    rw [hrequests]
    exact List.not_mem_nil

/-- A step of an open connection. -/
theorem Inv.onOpen (inv : sync.Inv) {step : Connection → Connection}
    (hsound : ∀ channel ∈ sync.ws, (step ⟨sync.client, channel⟩).Sound
      (if (step ⟨sync.client, channel⟩).channel.ready then []
        else (step ⟨sync.client, channel⟩).client.joinedRooms))
    (hunready : ∀ channel ∈ sync.ws, (step ⟨sync.client, channel⟩).channel.ready = false →
      (step ⟨sync.client, channel⟩).client.continuations = [] ∧
        (step ⟨sync.client, channel⟩).channel.toClient.head? = some .ready) :
    (sync.onOpen step).Inv := by
  rw [RoomSync.onOpen]
  cases hws : sync.ws with
  | none => exact inv
  | some channel =>
      exact
        { valid := (hsound channel hws).valid
          sound := by
            intro next hnext
            cases hnext
            exact hsound channel hws
          unready := by
            intro next hnext
            cases hnext
            exact hunready channel hws }

/-- Every step in order keeps the invariant. -/
theorem Inv.after (inv : sync.Inv) {step : RoomStep} (inOrder : sync.InOrder step) :
    (sync.after step).Inv := by
  cases step with
  | request joins room =>
      rw [RoomSync.after]
      apply inv.onOpen
      · intro channel hws
        exact (inv.sound channel hws).request joins room true fun _ hmem => .inr hmem
      · exact inv.unready
  | receive =>
      have hreceived : ∀ channel ∈ sync.ws,
          (Connection.receive ⟨sync.client, channel⟩).Sound [] ∧
            (Connection.receive ⟨sync.client, channel⟩).channel.ready = true := by
        intro channel hws
        have hsound := inv.sound channel hws
        cases hready : channel.ready with
        | false =>
            rw [hready] at hsound
            exact hsound.receive_first (inv.unready channel hws hready).2 hready
        | true =>
            rw [hready] at hsound
            exact hsound.receive hready (inOrder channel hws)
      rw [RoomSync.after]
      apply inv.onOpen
      · intro channel hws
        rw [if_pos (hreceived channel hws).2]
        exact (hreceived channel hws).1
      · intro channel hws hunready
        rw [(hreceived channel hws).2] at hunready
        cases hunready
  | continuation =>
      exact
        { valid := inv.valid.runContinuation
          sound := by
            intro channel hws
            have hsound := (inv.sound channel hws).runContinuation
            cases hready : channel.ready with
            | false =>
                rw [hready] at hsound
                have hidle := ClientRooms.runContinuation_of_nil (inv.unready channel hws hready).1
                rw [RoomSync.after, hidle]
                rw [hidle] at hsound
                exact hsound
            | true =>
                rw [hready] at hsound
                exact hsound
          unready := by
            intro channel hws hready
            obtain ⟨hnone, hfirst⟩ := inv.unready channel hws hready
            rw [RoomSync.after, ClientRooms.runContinuation_of_nil hnone]
            exact ⟨hnone, hfirst⟩ }
  | timeout id =>
      exact
        { valid :=
            { inv.valid with
              pending := fun request hmem =>
                inv.valid.pending request (List.mem_of_mem_filter hmem) }
          sound := fun channel hws => (inv.sound channel hws).forget id
          unready := inv.unready }
  | serve oversize =>
      rw [RoomSync.after]
      apply inv.onOpen
      · intro channel hws
        rw [Channel.ready_serve]
        exact (inv.sound channel hws).serve oversize
      · intro channel hws hunready
        rw [Channel.ready_serve] at hunready
        obtain ⟨hcontinuations, hfirst⟩ := inv.unready channel hws hunready
        exact ⟨hcontinuations, channel.head?_serve hfirst oversize⟩
  | peerEvent order =>
      rw [RoomSync.after]
      apply inv.onOpen
      · intro channel hws
        rw [Channel.ready_peerEvent]
        exact (inv.sound channel hws).peerEvent order
      · intro channel hws hunready
        rw [Channel.ready_peerEvent] at hunready
        obtain ⟨hcontinuations, hfirst⟩ := inv.unready channel hws hunready
        exact ⟨hcontinuations, channel.head?_peerEvent hfirst order⟩
  | drop =>
      exact
        { valid := { inv.valid with pending := nofun }
          sound := nofun
          unready := nofun }
  | reopen =>
      rw [RoomSync.after]
      split_ifs with hidle
      · exact
          { valid := inv.valid
            sound := by
              intro channel hws
              cases hws
              exact Connection.sound_new inv.valid hidle.2
            unready := by
              intro channel hws _
              cases hws
              exact ⟨hidle.2, rfl⟩ }
      · exact inv

/-- Where every continuation runs before the next frame is handled, as in a browser, each
frame is handled in order. -/
theorem inOrder_of_idle (hidle : sync.client.continuations = []) (step : RoomStep) :
    sync.InOrder step := by
  cases step with
  | receive =>
      intro channel _ frame _ continuation hcontinuation
      rw [hidle] at hcontinuation
      cases hcontinuation
  | request _ _ | continuation | timeout _ | serve _ | peerEvent _ | drop | reopen => trivial

/-- In a run whose frames are all handled in order, client and session agree whenever the
client has seen `ready` and no frame is on its way. -/
theorem agrees_of_inOrder (steps : List RoomStep)
    (inOrder : ∀ earlier step later, steps = earlier ++ step :: later →
      (earlier.foldl after start).InOrder step) :
    ∀ earlier later, steps = earlier ++ later → (earlier.foldl after start).Agrees := by
  intro earlier later hsplit
  have hkeeps : ∀ (sync : RoomSync) (step : RoomStep), sync.Inv → sync.InOrder step →
      (sync.after step).Inv := fun _ _ inv inOrder => inv.after inOrder
  apply Inv.agrees
  apply foldl_of_guarded hkeeps inv_start
  intro before step rest hbefore
  exact inOrder before step (rest ++ later) (by rw [hsplit, hbefore]; simp)

/-- A client that joins a room, with all its frames, and whose socket then drops. -/
def joinedAndDropped : List RoomStep :=
  [.reopen, .receive, .serve false, .receive, .request true "123456", .serve false, .receive,
    .continuation, .receive, .drop]

/-- The room is asked for again on the next socket, and a peer comes. -/
def joinedAgain : List RoomStep :=
  joinedAndDropped ++ [.reopen, .receive, .serve false, .serve false, .peerEvent ["123456"],
    .receive, .receive, .receive, .receive]

theorem agrees_joinedAgain :
    (∀ earlier later, joinedAgain = earlier ++ later → (earlier.foldl after start).Agrees) ∧
      (joinedAgain.foldl after start).client.joinedRooms = ["123456"] ∧
      (joinedAgain.foldl after start).ws = some ⟨[], [], {"123456"}, true⟩ := by
  have hinOrder : ∀ earlier step later, joinedAgain = earlier ++ step :: later →
      (earlier.foldl after start).InOrder step := by
    apply (forall_splits_iff fun earlier step => (earlier.foldl after start).InOrder step).mpr
    decide +kernel
  exact ⟨agrees_of_inOrder joinedAgain hinOrder, by decide +kernel, by decide +kernel⟩

/-- The user leaves the room between the opening of the next socket and its `ready`. The
answers to this and to the request that asks for the room again come in one turn, so the
continuation of the first runs after the second was announced. -/
def leftWhileReopening : List RoomStep :=
  joinedAndDropped ++ [.reopen, .request false "123456", .receive, .serve false, .serve false,
    .serve false, .receive, .receive, .receive, .receive, .receive, .continuation]

/-- The session is subscribed to the room, the client knows nothing of it, and nothing is
on its way. -/
theorem not_agrees_leftWhileReopening :
    let sync := leftWhileReopening.foldl after start
    sync.ws = some ⟨[], [], {"123456"}, true⟩ ∧ sync.client.joinedRooms = [] ∧
      sync.client.pending = [] ∧ sync.client.continuations = [] ∧ ¬sync.Agrees := by
  decide +kernel

end RoomSync

end Mlink.Client
