/-
# Rooms across join, leave and fan-out

A room that the daemon is in stands in four places: the node's set of hashes, the
store, the subscriptions of the sessions, and a bucket of the queue. Each has a
lock of its own, so a `join` or a `leave` passes through states in which they
disagree, and other sessions and the fan-out worker run in between. A `leave`
asks whether the room is still used and retires it later; the worker reads the
rooms and pushes later.
-/

import Mlink.Core.Node.Types
import Mlink.Daemon.FanOut
import Mlink.Lib.Entries

namespace Mlink.Daemon

open Mlink.Core (RoomHash)
open Transition

/-- Where the handler of a session stands between two locks. -/
inductive RoomTask
  | idle
  /-- The node has the hash; the store comes next. -/
  | storing (room : String)
  /-- The room is stored; the subscription and the drain come next. -/
  | subscribing (room : String)
  /-- The subscription is gone; is the room still used? -/
  | leaving (room : String)
  /-- The sessions still to be asked, under the lock of their list. -/
  | scanning (room : String) (rest : List Nat)
  /-- Nobody used the room: its hash goes, then the room, and then its bucket. -/
  | unhashing (room : String)
  | unstoring (room : String)
  | freeing (room : String)
  deriving DecidableEq, Repr

namespace RoomTask

def room : RoomTask → Option String
  | idle => none
  | storing room | subscribing room | leaving room | scanning room _ | unhashing room
  | unstoring room | freeing room => some room

/-- The handler holds the lock of the list of sessions. -/
def scans : RoomTask → Bool
  | scanning _ _ => true
  | _ => false

/-- The room that the next step takes out of the store. -/
def unstores : RoomTask → Option String
  | unstoring room => some room
  | _ => none

/-- At this task a handler still puts something right. -/
def mends : RoomTask → Bool
  | storing _ | unhashing _ | unstoring _ | freeing _ => true
  | idle | subscribing _ | leaving _ | scanning _ _ => false

/-- At this task a handler relies on what it has put in place. -/
def relies : RoomTask → Bool
  | storing _ | subscribing _ => true
  | idle | leaving _ | scanning _ _ | unhashing _ | unstoring _ | freeing _ => false

end RoomTask

structure RoomSession where
  subs : Finset String
  task : RoomTask
  deriving DecidableEq

def RoomSession.new : RoomSession := ⟨∅, .idle⟩

/-- The four places, the handlers of the sessions, and the worker. -/
structure DaemonRooms (Value : Type) where
  roomHashes : Finset RoomHash
  rooms : Finset String
  queue : MessageQueue Value
  sessions : List RoomSession
  worker : Worker Value

inductive RoomOp (Value : Type)
  | connect
  | join (session : Nat) (room : String)
  | leave (session : Nat) (room : String)
  /-- The session's handler takes its next lock. -/
  | proceed (session : Nat)
  /-- Between two requests the socket closes. -/
  | disconnect (session : Nat)
  /-- The worker receives a message and reads the rooms, in no certain order. -/
  | receive (message : Incoming Value) (order : List String)
  /-- The worker takes the locks, serves its next room, or releases them. -/
  | fan

/-- The code that a request names. -/
def RoomOp.room {Value : Type} : RoomOp Value → Option String
  | join _ room | leave _ room => some room
  | connect | proceed _ | disconnect _ | receive _ _ | fan => none

variable {Value : Type}

namespace DaemonRooms

variable (roomHash : String → RoomHash) (daemon : DaemonRooms Value)

/-- A daemon that has restored the given rooms. -/
def new (rooms : Finset String) : DaemonRooms Value :=
  ⟨rooms.image roomHash, rooms, .new, [], .idle⟩

/-- The worker holds the locks of the queue and of the list of sessions. -/
def fanning : Bool :=
  match daemon.worker with
  | .fanning _ _ => true
  | .idle | .listed _ _ => false

/-- The lock of the list of sessions is free. -/
def listFree : Bool := !daemon.fanning && daemon.sessions.all fun session => !session.task.scans

def setSession (index : Nat) (session : RoomSession) : DaemonRooms Value :=
  { daemon with sessions := daemon.sessions.set index session }

/-- A handler goes on to its next task. -/
def goOn (index : Nat) (session : RoomSession) (task : RoomTask) : DaemonRooms Value :=
  daemon.setSession index { session with task }

/-- A client connects: its session joins the list. -/
def connect : DaemonRooms Value := { daemon with sessions := daemon.sessions ++ [.new] }

/-- The socket closes. The daemon stays in its rooms. -/
def disconnect (index : Nat) : DaemonRooms Value :=
  { daemon with sessions := daemon.sessions.eraseIdx index }

/-- Take a `join` request: check the code and give the node the hash. -/
def join (index : Nat) (session : RoomSession) (room : String) : DaemonRooms Value :=
  if validRoomCode room then
    { daemon.goOn index session (.storing room) with
      roomHashes := insert (roomHash room) daemon.roomHashes }
  else daemon

/-- Take a `leave` request: check the code and drop the subscription. -/
def leave (index : Nat) (session : RoomSession) (room : String) : DaemonRooms Value :=
  if validRoomCode room ∧ room ∈ session.subs then
    daemon.setSession index ⟨session.subs.erase room, .leaving room⟩
  else daemon

/-- The next step of a session's handler. -/
def proceed (index : Nat) (session : RoomSession) : Option (DaemonRooms Value) :=
  match session.task with
  | .idle => none
  | .storing room =>
      some { daemon.goOn index session (.subscribing room) with
        rooms := insert room daemon.rooms }
  | .subscribing room =>
      if daemon.fanning then none
      else
        some { daemon.setSession index ⟨insert room session.subs, .idle⟩ with
          queue := (daemon.queue.drain room).2 }
  | .leaving room =>
      if daemon.listFree then
        some (daemon.goOn index session (.scanning room (List.range daemon.sessions.length)))
      else none
  | .scanning room [] => some (daemon.goOn index session (.unhashing room))
  | .scanning room (other :: rest) =>
      if (daemon.sessions[other]?).any fun asked => room ∈ asked.subs then
        some (daemon.goOn index session .idle)
      else some (daemon.goOn index session (.scanning room rest))
  | .unhashing room =>
      some { daemon.goOn index session (.unstoring room) with
        roomHashes := daemon.roomHashes.erase (roomHash room) }
  | .unstoring room =>
      some { daemon.goOn index session (.freeing room) with rooms := daemon.rooms.erase room }
  | .freeing room =>
      if daemon.fanning then none
      else
        some { daemon.goOn index session .idle with queue := daemon.queue.removeRoom room }

/-- One step of the worker. -/
def fan : Option (DaemonRooms Value) :=
  match daemon.worker with
  | .idle => none
  | .listed message rooms =>
      if daemon.listFree then some { daemon with worker := .fanning message rooms } else none
  | .fanning message (room :: rest) =>
      some { daemon with
        queue := daemon.queue.push (DaemonState.entryFor message room)
        worker := .fanning message rest }
  | .fanning _ [] => some { daemon with worker := .idle }

/-- Take on a message. Without rooms it is forgotten. -/
def receive (message : Incoming Value) (order : List String) : Option (DaemonRooms Value) :=
  match daemon.worker with
  | .idle =>
      if order.Nodup ∧ order.toFinset = daemon.rooms then
        if order = [] then some daemon
        else some { daemon with worker := .listed message order }
      else none
  | .listed _ _ | .fanning _ _ => none

/-- A request is taken, or the socket closes, only between two requests. -/
def ifIdle (index : Nat) (use : RoomSession → DaemonRooms Value) : Option (DaemonRooms Value) :=
  match daemon.sessions[index]? with
  | some session => if session.task = .idle then some (use session) else none
  | none => none

/-- One lock's worth of one handler or of the worker. -/
def step (op : RoomOp Value) : Option (DaemonRooms Value) :=
  match op with
  | .connect => if daemon.listFree then some daemon.connect else none
  | .join index room => daemon.ifIdle index fun session => daemon.join roomHash index session room
  | .leave index room => daemon.ifIdle index fun session => daemon.leave index session room
  | .proceed index => daemon.sessions[index]?.bind (daemon.proceed roomHash index)
  | .disconnect index =>
      if daemon.listFree then daemon.ifIdle index fun _ => daemon.disconnect index else none
  | .receive message order => daemon.receive message order
  | .fan => daemon.fan

/-- The daemon from its start, with rooms restored from among the codes in use. -/
def system (codes : Finset String) : System (DaemonRooms Value) (RoomOp Value) where
  init daemon := ∃ rooms ⊆ codes, daemon = .new roomHash rooms
  step source op target := source.step roomHash op = some target

/-! ## Agreement -/

/-- No operation is in progress. -/
def Quiet : Prop :=
  (∀ session ∈ daemon.sessions, session.task = .idle) ∧ daemon.worker = .idle

instance [DecidableEq Value] : Decidable daemon.Quiet :=
  inferInstanceAs (Decidable ((∀ session ∈ daemon.sessions, _) ∧ _))

/-- The node has the hashes of the stored rooms, the sessions are subscribed to
stored rooms, and the queue has buckets for stored rooms. -/
def Agrees : Prop :=
  daemon.roomHashes = daemon.rooms.image roomHash ∧
    (∀ session ∈ daemon.sessions, session.subs ⊆ daemon.rooms) ∧
      ∀ room, (daemon.queue.queues.lookup room).isSome → room ∈ daemon.rooms

/-- Some session is subscribed to the room. -/
def Subscribed (room : String) : Prop := ∃ session ∈ daemon.sessions, room ∈ session.subs

instance (room : String) : Decidable (daemon.Subscribed room) :=
  inferInstanceAs (Decidable (∃ session ∈ daemon.sessions, _))

/-- Some handler is at this task. -/
def At (task : RoomTask) : Prop := ∃ session ∈ daemon.sessions, session.task = task

instance (task : RoomTask) : Decidable (daemon.At task) :=
  inferInstanceAs (Decidable (∃ session ∈ daemon.sessions, _))

/-- Nobody is subscribed to the room or about to subscribe, and the node has its
hash only for a handler that is about to store the room, or to take the hash out. -/
def Unused (room : String) : Prop :=
  ¬ daemon.Subscribed room ∧ ¬ daemon.At (.subscribing room) ∧
    (daemon.At (.storing room) → roomHash room ∈ daemon.roomHashes) ∧
      (roomHash room ∈ daemon.roomHashes → daemon.At (.storing room) ∨ daemon.At (.unhashing room))

instance (room : String) : Decidable (daemon.Unused roomHash room) :=
  inferInstanceAs (Decidable (_ ∧ _ ∧ _ ∧ _))

/-- The room that the worker serves next. -/
def serves : Option String :=
  match daemon.worker with
  | .fanning _ (room :: _) => some room
  | _ => none

/-- A leave takes a room out of the store while it is unused, and the worker
serves a room that is stored or whose bucket is about to go. -/
def Steady : RoomOp Value → Prop
  | .proceed index =>
      ∀ session ∈ daemon.sessions[index]?, ∀ room ∈ session.task.unstores,
        daemon.Unused roomHash room
  | .fan => ∀ room ∈ daemon.serves, room ∈ daemon.rooms ∨ daemon.At (.freeing room)
  | .connect | .join .. | .leave .. | .disconnect _ | .receive .. => True

instance (op : RoomOp Value) : Decidable (daemon.Steady roomHash op) :=
  match op with
  | .proceed index =>
      inferInstanceAs (Decidable (∀ session ∈ daemon.sessions[index]?,
        ∀ room ∈ session.task.unstores, daemon.Unused roomHash room))
  | .fan =>
      inferInstanceAs (Decidable (∀ room ∈ daemon.serves,
        room ∈ daemon.rooms ∨ daemon.At (.freeing room)))
  | .connect | .join .. | .leave .. | .disconnect _ | .receive .. =>
      inferInstanceAs (Decidable True)

/-- Steady steps, with requests for the codes in use. -/
def SteadyWithin (roomHash : String → RoomHash) (codes : Finset String)
    (daemon : DaemonRooms Value) (op : RoomOp Value) : Prop :=
  (∀ room ∈ op.room, room ∈ codes) ∧ daemon.Steady roomHash op

instance (codes : Finset String) (op : RoomOp Value) :
    Decidable (SteadyWithin roomHash codes daemon op) :=
  inferInstanceAs (Decidable (_ ∧ _))

/-! ## What holds between two locks -/

/-- The four places agree, but for what the handlers on their way have still to
do: a hash may be there for a room that is about to be stored or whose hash is
about to go, a room without its hash is about to go, and so is a bucket without
its room. -/
structure Coherent (codes : Finset String) : Prop where
  used : ∀ room ∈ daemon.rooms, room ∈ codes
  tasks : ∀ task, daemon.At task → ∀ room ∈ task.room, room ∈ codes
  hashes : ∀ hash ∈ daemon.roomHashes, ∃ room, roomHash room = hash ∧
    (room ∈ daemon.rooms ∨ daemon.At (.storing room) ∨ daemon.At (.unhashing room))
  rooms : ∀ room, room ∈ daemon.rooms ∨ daemon.At (.storing room) →
    roomHash room ∈ daemon.roomHashes ∨ daemon.At (.unstoring room)
  subs : ∀ room, daemon.Subscribed room ∨ daemon.At (.subscribing room) → room ∈ daemon.rooms
  buckets : ∀ room, (daemon.queue.queues.lookup room).isSome →
    room ∈ daemon.rooms ∨ daemon.At (.freeing room)

variable {roomHash} {daemon} {after : DaemonRooms Value} {codes : Finset String} {index : Nat}
  {session next : RoomSession} {task : RoomTask} {room : String}

/-- One handler goes from one task to another, and the others stay. -/
structure Replaces (daemon after : DaemonRooms Value) (task next : RoomTask) : Prop where
  before : daemon.At task
  now : after.At next
  keeps : ∀ other, other ≠ task → daemon.At other → after.At other
  back : ∀ other, other ≠ next → after.At other → daemon.At other

theorem replaces_set (hsession : daemon.sessions[index]? = some session)
    (hsessions : after.sessions = daemon.sessions.set index next) :
    Replaces daemon after session.task next.task where
  before := ⟨session, List.mem_of_getElem? hsession, rfl⟩
  now := by
    obtain ⟨hbound, _⟩ := List.getElem?_eq_some_iff.mp hsession
    refine ⟨next, ?_, rfl⟩
    rw [hsessions]
    exact List.mem_set hbound next
  keeps := by
    rintro _ hne ⟨other, hother, rfl⟩
    refine ⟨other, ?_, rfl⟩
    rw [hsessions]
    apply Entries.mem_set_of_ne hsession hother
    rintro rfl
    exact hne rfl
  back := by
    rintro _ hne ⟨other, hother, rfl⟩
    rw [hsessions] at hother
    rcases List.mem_or_eq_of_mem_set hother with hold | rfl
    · exact ⟨other, hold, rfl⟩
    · exact absurd rfl hne

theorem replaces_goOn {subs : Finset String} {next : RoomTask}
    (hsession : daemon.sessions[index]? = some session)
    (hsessions : after.sessions = daemon.sessions.set index ⟨subs, next⟩) :
    Replaces daemon after session.task next :=
  replaces_set hsession hsessions

/-- No subscription is new but those of the session that is replaced. -/
theorem subscribed_of_set (hsessions : after.sessions = daemon.sessions.set index next)
    (subscribed : after.Subscribed room) : daemon.Subscribed room ∨ room ∈ next.subs := by
  obtain ⟨other, hother, hmem⟩ := subscribed
  rw [hsessions] at hother
  rcases List.mem_or_eq_of_mem_set hother with hold | rfl
  · exact .inl ⟨other, hold, hmem⟩
  · exact .inr hmem

/-- The rooms that handlers are concerned with are in use if the new one is. -/
theorem Coherent.tasks_of_replaces {next : RoomTask} (coherent : daemon.Coherent roomHash codes)
    (replaces : Replaces daemon after task next) (hnext : ∀ room ∈ next.room, room ∈ codes) :
    ∀ other, after.At other → ∀ room ∈ other.room, room ∈ codes := by
  intro other hother
  by_cases hnew : other = next
  · rw [hnew]
    exact hnext
  · exact coherent.tasks other (replaces.back other hnew hother)

/-- No hash is new, no room is gone, and the handlers that account for a hash go
on. -/
theorem Coherent.hashes_of_kept (coherent : daemon.Coherent roomHash codes)
    (hhashes : after.roomHashes ⊆ daemon.roomHashes) (hrooms : daemon.rooms ⊆ after.rooms)
    (storing : ∀ room, daemon.At (.storing room) → after.At (.storing room))
    (unhashing : ∀ room, daemon.At (.unhashing room) → after.At (.unhashing room)) :
    ∀ hash ∈ after.roomHashes, ∃ room, roomHash room = hash ∧
      (room ∈ after.rooms ∨ after.At (.storing room) ∨ after.At (.unhashing room)) := by
  intro hash hhash
  obtain ⟨room, hroom, hwhy⟩ := coherent.hashes hash (hhashes hhash)
  exact ⟨room, hroom, hwhy.imp (hrooms ·) (Or.imp (storing room) (unhashing room))⟩

/-- No room is new or about to be stored, no hash is gone, and the handlers that
take rooms out go on. -/
theorem Coherent.rooms_of_kept (coherent : daemon.Coherent roomHash codes)
    (hrooms : after.rooms ⊆ daemon.rooms) (hhashes : daemon.roomHashes ⊆ after.roomHashes)
    (storing : ∀ room, after.At (.storing room) → daemon.At (.storing room))
    (unstoring : ∀ room, daemon.At (.unstoring room) → after.At (.unstoring room)) :
    ∀ room, room ∈ after.rooms ∨ after.At (.storing room) →
      roomHash room ∈ after.roomHashes ∨ after.At (.unstoring room) := by
  intro room hwhy
  exact (coherent.rooms room (hwhy.imp (hrooms ·) (storing room))).imp (hhashes ·)
    (unstoring room)

/-- No subscription is new or about to be, and no room is gone. -/
theorem Coherent.subs_of_kept (coherent : daemon.Coherent roomHash codes)
    (hsubs : ∀ room, after.Subscribed room → daemon.Subscribed room)
    (hrooms : daemon.rooms ⊆ after.rooms)
    (subscribing : ∀ room, after.At (.subscribing room) → daemon.At (.subscribing room)) :
    ∀ room, after.Subscribed room ∨ after.At (.subscribing room) → room ∈ after.rooms := by
  intro room hwhy
  exact hrooms (coherent.subs room (hwhy.imp (hsubs room) (subscribing room)))

/-- No bucket is new, no room is gone, and the handlers that remove buckets go on. -/
theorem Coherent.buckets_of_kept (coherent : daemon.Coherent roomHash codes)
    (hqueue : ∀ room, (after.queue.queues.lookup room).isSome →
      (daemon.queue.queues.lookup room).isSome)
    (hrooms : daemon.rooms ⊆ after.rooms)
    (freeing : ∀ room, daemon.At (.freeing room) → after.At (.freeing room)) :
    ∀ room, (after.queue.queues.lookup room).isSome →
      room ∈ after.rooms ∨ after.At (.freeing room) := by
  intro room hbucket
  exact (coherent.buckets room (hqueue room hbucket)).imp (hrooms ·) (freeing room)

/-- Where the stores are left alone, what mends goes on, and nothing new relies
on them, all stays as it is. -/
theorem Coherent.still (coherent : daemon.Coherent roomHash codes)
    (tasks : ∀ task, after.At task → ∀ room ∈ task.room, room ∈ codes)
    (keeps : ∀ task, task.mends = true → daemon.At task → after.At task)
    (back : ∀ task, task.relies = true → after.At task → daemon.At task)
    (hsubs : ∀ room, after.Subscribed room → daemon.Subscribed room)
    (hhashes : after.roomHashes = daemon.roomHashes) (hrooms : after.rooms = daemon.rooms)
    (hqueue : after.queue = daemon.queue) : after.Coherent roomHash codes where
  used := by
    rw [hrooms]
    exact coherent.used
  tasks := tasks
  hashes := coherent.hashes_of_kept hhashes.subset hrooms.symm.subset
    (fun _ => keeps _ rfl) (fun _ => keeps _ rfl)
  rooms := coherent.rooms_of_kept hrooms.subset hhashes.symm.subset
    (fun _ => back _ rfl) (fun _ => keeps _ rfl)
  subs := coherent.subs_of_kept hsubs hrooms.symm.subset (fun _ => back _ rfl)
  buckets := by
    apply coherent.buckets_of_kept _ hrooms.symm.subset (fun _ => keeps _ rfl)
    rw [hqueue]
    exact fun _ hbucket => hbucket

section Handlers

variable (coherent : daemon.Coherent roomHash codes)
include coherent

/-- The node has the hash, and the room is about to be stored. -/
theorem Coherent.hashed (replaces : Replaces daemon after .idle (.storing room))
    (hcode : room ∈ codes) (hsubs : ∀ other, after.Subscribed other → daemon.Subscribed other)
    (hhashes : after.roomHashes = insert (roomHash room) daemon.roomHashes)
    (hrooms : after.rooms = daemon.rooms) (hqueue : after.queue = daemon.queue) :
    after.Coherent roomHash codes where
  used := by
    rw [hrooms]
    exact coherent.used
  tasks := coherent.tasks_of_replaces replaces fun _ hsame => Option.mem_some.mp hsame ▸ hcode
  hashes := by
    intro hash hhash
    rw [hhashes, Finset.mem_insert] at hhash
    rw [hrooms]
    rcases hhash with rfl | hold
    · exact ⟨room, rfl, .inr (.inl replaces.now)⟩
    · obtain ⟨other, hother, hwhy⟩ := coherent.hashes hash hold
      exact ⟨other, hother,
        hwhy.imp_right (Or.imp (replaces.keeps _ nofun) (replaces.keeps _ nofun))⟩
  rooms := by
    intro other hwhy
    rw [hrooms] at hwhy
    rw [hhashes, Finset.mem_insert]
    by_cases hhere : other = room
    · rw [hhere]
      exact .inl (.inl rfl)
    · have hback : daemon.At (.storing other) ∨ other ∈ daemon.rooms :=
        hwhy.symm.imp_left (replaces.back _ (by simpa using hhere))
      exact (coherent.rooms other hback.symm).imp .inr (replaces.keeps _ nofun)
  subs := coherent.subs_of_kept hsubs hrooms.symm.subset (fun _ => replaces.back _ nofun)
  buckets := by
    apply coherent.buckets_of_kept _ hrooms.symm.subset (fun _ => replaces.keeps _ nofun)
    rw [hqueue]
    exact fun _ hbucket => hbucket

/-- The room is stored, and the session is about to subscribe. -/
theorem Coherent.stored (replaces : Replaces daemon after (.storing room) (.subscribing room))
    (hsubs : ∀ other, after.Subscribed other → daemon.Subscribed other)
    (hhashes : after.roomHashes = daemon.roomHashes)
    (hrooms : after.rooms = insert room daemon.rooms) (hqueue : after.queue = daemon.queue) :
    after.Coherent roomHash codes := by
  have hcode : room ∈ codes := coherent.tasks _ replaces.before room rfl
  constructor
  · intro other hother
    rw [hrooms, Finset.mem_insert] at hother
    rcases hother with rfl | hold
    · exact hcode
    · exact coherent.used other hold
  · exact coherent.tasks_of_replaces replaces fun _ hsame => Option.mem_some.mp hsame ▸ hcode
  · intro hash hhash
    rw [hhashes] at hhash
    obtain ⟨other, hother, hwhy⟩ := coherent.hashes hash hhash
    refine ⟨other, hother, ?_⟩
    rw [hrooms, Finset.mem_insert]
    by_cases hhere : other = room
    · exact .inl (.inl hhere)
    · exact hwhy.imp .inr
        (Or.imp (replaces.keeps _ (by simpa using hhere)) (replaces.keeps _ nofun))
  · intro other hwhy
    rw [hrooms, Finset.mem_insert] at hwhy
    rw [hhashes]
    by_cases hhere : other = room
    · rw [hhere]
      exact (coherent.rooms room (.inr replaces.before)).imp_right (replaces.keeps _ nofun)
    · have hback := (hwhy.imp_left (Or.resolve_left · hhere)).imp_right
        (replaces.back (.storing other) nofun)
      exact (coherent.rooms other hback).imp_right (replaces.keeps _ nofun)
  · intro other hwhy
    rw [hrooms, Finset.mem_insert]
    by_cases hhere : other = room
    · exact .inl hhere
    · exact .inr (coherent.subs other
        (hwhy.imp (hsubs other) (replaces.back _ (by simpa using hhere))))
  · have hkept : daemon.rooms ⊆ after.rooms := hrooms ▸ Finset.subset_insert room daemon.rooms
    apply coherent.buckets_of_kept _ hkept (fun _ => replaces.keeps _ nofun)
    rw [hqueue]
    exact fun _ hbucket => hbucket

/-- The session is subscribed, and has drained the bucket. -/
theorem Coherent.subscribed (replaces : Replaces daemon after (.subscribing room) .idle)
    (hsubs : ∀ other, after.Subscribed other → daemon.Subscribed other ∨ other = room)
    (hhashes : after.roomHashes = daemon.roomHashes) (hrooms : after.rooms = daemon.rooms)
    (hqueue : after.queue = (daemon.queue.drain room).2) : after.Coherent roomHash codes := by
  have hstored : room ∈ daemon.rooms := coherent.subs room (.inr replaces.before)
  constructor
  · rw [hrooms]
    exact coherent.used
  · exact coherent.tasks_of_replaces replaces nofun
  · exact coherent.hashes_of_kept hhashes.subset hrooms.symm.subset
      (fun _ => replaces.keeps _ nofun) (fun _ => replaces.keeps _ nofun)
  · exact coherent.rooms_of_kept hrooms.subset hhashes.symm.subset
      (fun _ => replaces.back _ nofun) (fun _ => replaces.keeps _ nofun)
  · intro other hwhy
    rw [hrooms]
    rcases hwhy with hsubscribed | hsubscribing
    · rcases hsubs other hsubscribed with hold | rfl
      · exact coherent.subs other (.inl hold)
      · exact hstored
    · exact coherent.subs other (.inr (replaces.back _ nofun hsubscribing))
  · apply coherent.buckets_of_kept _ hrooms.symm.subset (fun _ => replaces.keeps _ nofun)
    intro other hbucket
    rwa [hqueue, MessageQueue.isSome_lookup_drain] at hbucket

/-- The hash is out, and the room is about to go. -/
theorem Coherent.unhashed (hinj : Set.InjOn roomHash codes)
    (replaces : Replaces daemon after (.unhashing room) (.unstoring room))
    (hsubs : ∀ other, after.Subscribed other → daemon.Subscribed other)
    (hhashes : after.roomHashes = daemon.roomHashes.erase (roomHash room))
    (hrooms : after.rooms = daemon.rooms) (hqueue : after.queue = daemon.queue) :
    after.Coherent roomHash codes := by
  have hcode : room ∈ codes := coherent.tasks _ replaces.before room rfl
  constructor
  · rw [hrooms]
    exact coherent.used
  · exact coherent.tasks_of_replaces replaces fun _ hsame => Option.mem_some.mp hsame ▸ hcode
  · intro hash hhash
    rw [hhashes, Finset.mem_erase] at hhash
    rw [hrooms]
    obtain ⟨other, hother, hwhy⟩ := coherent.hashes hash hhash.2
    have hapart : other ≠ room := by
      rintro rfl
      exact hhash.1 hother.symm
    exact ⟨other, hother, hwhy.imp_right
      (Or.imp (replaces.keeps _ nofun) (replaces.keeps _ (by simpa using hapart)))⟩
  · intro other hwhy
    rw [hrooms] at hwhy
    have hback := hwhy.imp_right (replaces.back (.storing other) nofun)
    by_cases hhere : other = room
    · rw [hhere]
      exact .inr replaces.now
    · have hused : other ∈ codes :=
        hback.elim (coherent.used other) fun hat => coherent.tasks _ hat other rfl
      have hapart : roomHash other ≠ roomHash room := fun hsame =>
        hhere (hinj hused hcode hsame)
      rw [hhashes, Finset.mem_erase]
      exact (coherent.rooms other hback).imp (fun hmem => ⟨hapart, hmem⟩)
        (replaces.keeps _ nofun)
  · exact coherent.subs_of_kept hsubs hrooms.symm.subset (fun _ => replaces.back _ nofun)
  · apply coherent.buckets_of_kept _ hrooms.symm.subset (fun _ => replaces.keeps _ nofun)
    rw [hqueue]
    exact fun _ hbucket => hbucket

/-- The room is out of the store, where it was unused. -/
theorem Coherent.unstored (unused : daemon.Unused roomHash room)
    (replaces : Replaces daemon after (.unstoring room) (.freeing room))
    (hsubs : ∀ other, after.Subscribed other → daemon.Subscribed other)
    (hhashes : after.roomHashes = daemon.roomHashes)
    (hrooms : after.rooms = daemon.rooms.erase room) (hqueue : after.queue = daemon.queue) :
    after.Coherent roomHash codes := by
  obtain ⟨hunsubscribed, hunsubscribing, hstoring, hhashed⟩ := unused
  have hcode : room ∈ codes := coherent.tasks _ replaces.before room rfl
  constructor
  · intro other hother
    rw [hrooms] at hother
    exact coherent.used other (Finset.mem_of_mem_erase hother)
  · exact coherent.tasks_of_replaces replaces fun _ hsame => Option.mem_some.mp hsame ▸ hcode
  · intro hash hhash
    rw [hhashes] at hhash
    obtain ⟨other, rfl, hwhy⟩ := coherent.hashes hash hhash
    refine ⟨other, rfl, ?_⟩
    rw [hrooms, Finset.mem_erase]
    by_cases hhere : other = room
    · subst hhere
      exact .inr ((hhashed hhash).imp (replaces.keeps _ nofun) (replaces.keeps _ nofun))
    · exact hwhy.imp (fun hmem => ⟨hhere, hmem⟩)
        (Or.imp (replaces.keeps _ nofun) (replaces.keeps _ nofun))
  · intro other hwhy
    rw [hrooms, Finset.mem_erase] at hwhy
    rw [hhashes]
    by_cases hhere : other = room
    · subst hhere
      have hat := hwhy.resolve_left fun hmem => hmem.1 rfl
      exact .inl (hstoring (replaces.back _ nofun hat))
    · have hback := hwhy.imp And.right (replaces.back (.storing other) nofun)
      exact (coherent.rooms other hback).imp_right
        (replaces.keeps _ (by simpa using hhere))
  · intro other hwhy
    have hback := hwhy.imp (hsubs other) (replaces.back (.subscribing other) nofun)
    rw [hrooms, Finset.mem_erase]
    refine ⟨?_, coherent.subs other hback⟩
    rintro rfl
    exact hback.elim hunsubscribed hunsubscribing
  · intro other hbucket
    rw [hqueue] at hbucket
    rw [hrooms, Finset.mem_erase]
    by_cases hhere : other = room
    · rw [hhere]
      exact .inr replaces.now
    · exact (coherent.buckets other hbucket).imp (fun hmem => ⟨hhere, hmem⟩)
        (replaces.keeps _ nofun)

/-- The bucket is gone. -/
theorem Coherent.freed (replaces : Replaces daemon after (.freeing room) .idle)
    (hsubs : ∀ other, after.Subscribed other → daemon.Subscribed other)
    (hhashes : after.roomHashes = daemon.roomHashes) (hrooms : after.rooms = daemon.rooms)
    (hqueue : after.queue = daemon.queue.removeRoom room) : after.Coherent roomHash codes := by
  constructor
  · rw [hrooms]
    exact coherent.used
  · exact coherent.tasks_of_replaces replaces nofun
  · exact coherent.hashes_of_kept hhashes.subset hrooms.symm.subset
      (fun _ => replaces.keeps _ nofun) (fun _ => replaces.keeps _ nofun)
  · exact coherent.rooms_of_kept hrooms.subset hhashes.symm.subset
      (fun _ => replaces.back _ nofun) (fun _ => replaces.keeps _ nofun)
  · exact coherent.subs_of_kept hsubs hrooms.symm.subset (fun _ => replaces.back _ nofun)
  · intro other hbucket
    rw [hqueue] at hbucket
    rw [hrooms]
    by_cases hhere : other = room
    · rw [hhere, MessageQueue.removeRoom, AList.lookup_erase] at hbucket
      cases hbucket
    · rw [MessageQueue.removeRoom, AList.lookup_erase_ne hhere] at hbucket
      exact (coherent.buckets other hbucket).imp_right
        (replaces.keeps _ (by simpa using hhere))

/-- The worker serves a room that is stored, or whose bucket is about to go. -/
theorem Coherent.served (entry : MessageEntry Value)
    (steady : entry.room ∈ daemon.rooms ∨ daemon.At (.freeing entry.room)) (worker : Worker Value) :
    { daemon with queue := daemon.queue.push entry, worker }.Coherent roomHash codes where
  used := coherent.used
  tasks := coherent.tasks
  hashes := coherent.hashes
  rooms := coherent.rooms
  subs := coherent.subs
  buckets := by
    intro other hbucket
    by_cases hhere : other = entry.room
    · rw [hhere]
      exact steady
    · rw [MessageQueue.push, AList.lookup_insert_ne hhere] at hbucket
      exact coherent.buckets other hbucket

end Handlers

/-! ## Every step -/

theorem coherent_new {rooms : Finset String} (hrooms : rooms ⊆ codes) :
    (new roomHash rooms : DaemonRooms Value).Coherent roomHash codes where
  used _ hroom := hrooms hroom
  tasks := by
    rintro _ ⟨_, hsession, _⟩
    cases hsession
  hashes := by
    intro hash hhash
    obtain ⟨room, hroom, hsame⟩ := Finset.mem_image.mp hhash
    exact ⟨room, hsame, .inl hroom⟩
  rooms := by
    rintro room (hroom | ⟨_, hsession, _⟩)
    · exact .inl (Finset.mem_image_of_mem roomHash hroom)
    · cases hsession
  subs := by
    rintro room (⟨_, hsession, _⟩ | ⟨_, hsession, _⟩)
    · cases hsession
    · cases hsession
  buckets _ hbucket := by cases hbucket

/-- A handler that asks around, or begins and ends, leaves all as it is. -/
theorem Coherent.setSession (coherent : daemon.Coherent roomHash codes)
    (hsession : daemon.sessions[index]? = some session) (hsubs : next.subs ⊆ session.subs)
    (hcodes : ∀ room ∈ next.task.room, room ∈ codes) (before : session.task.mends = false)
    (now : next.task.relies = false) :
    (daemon.setSession index next).Coherent roomHash codes := by
  have replaces : Replaces daemon (daemon.setSession index next) session.task next.task :=
    replaces_set hsession rfl
  apply coherent.still (coherent.tasks_of_replaces replaces hcodes) _ _ _ rfl rfl rfl
  · intro task hmends
    apply replaces.keeps
    rintro rfl
    rw [before] at hmends
    cases hmends
  · intro task hrelies
    apply replaces.back
    rintro rfl
    rw [now] at hrelies
    cases hrelies
  · intro room hsubscribed
    rcases subscribed_of_set rfl hsubscribed with hold | hmem
    · exact hold
    · exact ⟨session, List.mem_of_getElem? hsession, hsubs hmem⟩

/-- A handler that changes a store keeps the subscriptions. -/
theorem subscribed_of_goOn (hsession : daemon.sessions[index]? = some session)
    (hsessions : after.sessions = daemon.sessions.set index { session with task }) (other : String)
    (subscribed : after.Subscribed other) : daemon.Subscribed other := by
  rcases subscribed_of_set hsessions subscribed with hold | hmem
  · exact hold
  · exact ⟨session, List.mem_of_getElem? hsession, hmem⟩

theorem Coherent.join (coherent : daemon.Coherent roomHash codes)
    (hsession : daemon.sessions[index]? = some session) (hidle : session.task = .idle)
    (hcode : room ∈ codes) : (daemon.join roomHash index session room).Coherent roomHash codes := by
  rw [DaemonRooms.join]
  split_ifs
  · refine coherent.hashed ?_ hcode (subscribed_of_goOn hsession rfl) rfl rfl rfl
    rw [← hidle]
    exact replaces_goOn hsession rfl
  · exact coherent

theorem Coherent.leave (coherent : daemon.Coherent roomHash codes)
    (hsession : daemon.sessions[index]? = some session) (hidle : session.task = .idle)
    (hcode : room ∈ codes) : (daemon.leave index session room).Coherent roomHash codes := by
  rw [DaemonRooms.leave]
  split_ifs
  · apply coherent.setSession hsession (Finset.erase_subset room session.subs)
    · rintro _ ⟨⟩
      exact hcode
    · rw [hidle]
      rfl
    · rfl
  · exact coherent

theorem Coherent.proceed (coherent : daemon.Coherent roomHash codes)
    (hinj : Set.InjOn roomHash codes) (hsession : daemon.sessions[index]? = some session)
    (steady : ∀ room ∈ session.task.unstores, daemon.Unused roomHash room)
    (taken : daemon.proceed roomHash index session = some after) :
    after.Coherent roomHash codes := by
  obtain ⟨subs, task⟩ := session
  have hcodes : ∀ room ∈ task.room, room ∈ codes :=
    coherent.tasks task ⟨_, List.mem_of_getElem? hsession, rfl⟩
  cases task with
  | idle => cases taken
  | storing room =>
      cases taken
      exact coherent.stored (replaces_goOn hsession rfl) (subscribed_of_goOn hsession rfl)
        rfl rfl rfl
  | subscribing room =>
      simp only [DaemonRooms.proceed] at taken
      split_ifs at taken
      cases taken
      refine coherent.subscribed (replaces_goOn hsession rfl) ?_ rfl rfl rfl
      intro other hsubscribed
      rcases subscribed_of_set rfl hsubscribed with hold | hmem
      · exact .inl hold
      · rcases Finset.mem_insert.mp hmem with rfl | hown
        · exact .inr rfl
        · exact .inl ⟨_, List.mem_of_getElem? hsession, hown⟩
  | leaving room =>
      simp only [DaemonRooms.proceed] at taken
      split_ifs at taken
      cases taken
      exact coherent.setSession hsession (Finset.Subset.refl _) hcodes rfl rfl
  | scanning room rest =>
      cases rest with
      | nil =>
          cases taken
          exact coherent.setSession hsession (Finset.Subset.refl _) hcodes rfl rfl
      | cons other rest =>
          simp only [DaemonRooms.proceed] at taken
          split_ifs at taken
          · cases taken
            exact coherent.setSession hsession (Finset.Subset.refl _) nofun rfl rfl
          · cases taken
            exact coherent.setSession hsession (Finset.Subset.refl _) hcodes rfl rfl
  | unhashing room =>
      cases taken
      exact coherent.unhashed hinj (replaces_goOn hsession rfl) (subscribed_of_goOn hsession rfl)
        rfl rfl rfl
  | unstoring room =>
      cases taken
      exact coherent.unstored (steady room rfl) (replaces_goOn hsession rfl)
        (subscribed_of_goOn hsession rfl) rfl rfl rfl
  | freeing room =>
      simp only [DaemonRooms.proceed] at taken
      split_ifs at taken
      cases taken
      exact coherent.freed (replaces_goOn hsession rfl) (subscribed_of_goOn hsession rfl)
        rfl rfl rfl

theorem Coherent.fan (coherent : daemon.Coherent roomHash codes)
    (steady : ∀ room ∈ daemon.serves, room ∈ daemon.rooms ∨ daemon.At (.freeing room))
    (taken : daemon.fan = some after) : after.Coherent roomHash codes := by
  rw [DaemonRooms.fan] at taken
  split at taken
  · cases taken
  · split_ifs at taken
    cases taken
    exact coherent.still coherent.tasks (fun _ _ hat => hat) (fun _ _ hat => hat)
      (fun _ hsub => hsub) rfl rfl rfl
  · rename_i message room rest hworker
    cases taken
    apply coherent.served
    apply steady
    rw [serves, hworker]
    rfl
  · cases taken
    exact coherent.still coherent.tasks (fun _ _ hat => hat) (fun _ _ hat => hat)
      (fun _ hsub => hsub) rfl rfl rfl

theorem Coherent.receive {message : Incoming Value} {order : List String}
    (coherent : daemon.Coherent roomHash codes)
    (taken : daemon.receive message order = some after) : after.Coherent roomHash codes := by
  rw [DaemonRooms.receive] at taken
  split at taken
  · split_ifs at taken
    · cases taken
      exact coherent
    · cases taken
      exact coherent.still coherent.tasks (fun _ _ hat => hat) (fun _ _ hat => hat)
        (fun _ hsub => hsub) rfl rfl rfl
  · cases taken
  · cases taken

/-- A session that connects has no subscription and is at no task. -/
theorem Coherent.connect (coherent : daemon.Coherent roomHash codes) :
    daemon.connect.Coherent roomHash codes := by
  have hback : ∀ task, task ≠ .idle → daemon.connect.At task → daemon.At task := by
    rintro _ hbusy ⟨session, hsession, rfl⟩
    rcases List.mem_append.mp hsession with hold | hnew
    · exact ⟨session, hold, rfl⟩
    · rw [List.mem_singleton.mp hnew] at hbusy
      exact absurd rfl hbusy
  refine coherent.still ?_ ?_ ?_ ?_ rfl rfl rfl
  · intro task hat room hroom
    refine coherent.tasks task (hback task ?_ hat) room hroom
    rintro rfl
    cases hroom
  · rintro task _ ⟨session, hsession, hsame⟩
    exact ⟨session, List.mem_append_left _ hsession, hsame⟩
  · intro task hrelies
    apply hback
    rintro rfl
    cases hrelies
  · rintro room ⟨session, hsession, hmem⟩
    rcases List.mem_append.mp hsession with hold | hnew
    · exact ⟨session, hold, hmem⟩
    · rw [List.mem_singleton.mp hnew] at hmem
      cases hmem

/-- A session that disconnects was at no task. -/
theorem Coherent.disconnect (coherent : daemon.Coherent roomHash codes)
    (hsession : daemon.sessions[index]? = some session) (hidle : session.task = .idle) :
    (daemon.disconnect index).Coherent roomHash codes := by
  refine coherent.still ?_ ?_ ?_ ?_ rfl rfl rfl
  · rintro task ⟨other, hother, hsame⟩ room hroom
    exact coherent.tasks task ⟨other, List.mem_of_mem_eraseIdx hother, hsame⟩ room hroom
  · rintro _ hmends ⟨other, hother, rfl⟩
    refine ⟨other, ?_, rfl⟩
    obtain ⟨place, hplace⟩ := List.mem_iff_getElem?.mp hother
    show other ∈ daemon.sessions.eraseIdx index
    rw [List.mem_eraseIdx_iff_getElem?]
    refine ⟨place, ?_, hplace⟩
    rintro rfl
    rw [Option.mem_unique hplace hsession, hidle] at hmends
    cases hmends
  · rintro task _ ⟨other, hother, hsame⟩
    exact ⟨other, List.mem_of_mem_eraseIdx hother, hsame⟩
  · rintro room ⟨other, hother, hmem⟩
    exact ⟨other, List.mem_of_mem_eraseIdx hother, hmem⟩

/-- A step that waits for the session to be idle finds it so. -/
theorem idle_of_ifIdle {use : RoomSession → DaemonRooms Value}
    (taken : daemon.ifIdle index use = some after) :
    ∃ session, daemon.sessions[index]? = some session ∧ session.task = .idle ∧
      after = use session := by
  rw [ifIdle] at taken
  split at taken
  · rename_i session hsession
    split_ifs at taken with hidle
    cases taken
    exact ⟨session, hsession, hidle, rfl⟩
  · cases taken

theorem Coherent.step {op : RoomOp Value} (coherent : daemon.Coherent roomHash codes)
    (hinj : Set.InjOn roomHash codes) (steady : daemon.SteadyWithin roomHash codes op)
    (taken : daemon.step roomHash op = some after) : after.Coherent roomHash codes := by
  obtain ⟨hcode, steady⟩ := steady
  cases op with
  | connect =>
      simp only [DaemonRooms.step] at taken
      split_ifs at taken
      cases taken
      exact coherent.connect
  | join index room =>
      obtain ⟨session, hsession, hidle, rfl⟩ := idle_of_ifIdle taken
      exact coherent.join hsession hidle (hcode room rfl)
  | leave index room =>
      obtain ⟨session, hsession, hidle, rfl⟩ := idle_of_ifIdle taken
      exact coherent.leave hsession hidle (hcode room rfl)
  | proceed index =>
      obtain ⟨session, hsession, hproceed⟩ := Option.bind_eq_some_iff.mp taken
      exact coherent.proceed hinj hsession (steady session hsession) hproceed
  | disconnect index =>
      simp only [DaemonRooms.step] at taken
      split_ifs at taken
      obtain ⟨session, hsession, hidle, rfl⟩ := idle_of_ifIdle taken
      exact coherent.disconnect hsession hidle
  | receive message order => exact coherent.receive taken
  | fan => exact coherent.fan steady taken

/-- Where a leave retires rooms only while they are unused, and the worker serves
rooms only while they are stored, the four places agree whenever no operation is
in progress. -/
theorem agrees_of_reachable (hinj : Set.InjOn roomHash codes)
    (reached : ((system roomHash codes).restrict (SteadyWithin roomHash codes)).Reachable daemon)
    (quiet : daemon.Quiet) : daemon.Agrees roomHash := by
  have coherent : daemon.Coherent roomHash codes := by
    apply reached.invariant (fun daemon => daemon.Coherent roomHash codes)
    · rintro _ ⟨rooms, hrooms, rfl⟩
      exact coherent_new hrooms
    · rintro source op target _ coherent ⟨taken, steady⟩
      exact coherent.step hinj steady taken
  have hnone : ∀ task, task ≠ .idle → ¬ daemon.At task := by
    rintro _ hbusy ⟨session, hsession, rfl⟩
    exact hbusy (quiet.1 session hsession)
  refine ⟨?_, ?_, ?_⟩
  · ext hash
    rw [Finset.mem_image]
    constructor
    · intro hhash
      obtain ⟨room, hroom, hwhy⟩ := coherent.hashes hash hhash
      exact ⟨room, hwhy.resolve_right (not_or.mpr ⟨hnone _ nofun, hnone _ nofun⟩), hroom⟩
    · rintro ⟨room, hroom, rfl⟩
      exact (coherent.rooms room (.inl hroom)).resolve_right (hnone _ nofun)
  · intro session hsession room hmem
    exact coherent.subs room (.inl ⟨session, hsession, hmem⟩)
  · intro room hbucket
    exact (coherent.buckets room hbucket).resolve_right (hnone _ nofun)

/-! ## A leave and a join, a leave and a message -/

/-- What `room_hash` makes of the two codes. -/
def sampleHash (code : String) : RoomHash :=
  if code = "123456" then 0xd62f2a305fe55d4a else 0xd7c4d2e9441ae1f7

/-- One client is in the room and another is connected; the first leaves, and
finds that nobody else is in the room. -/
def leaveUnused : List (RoomOp Unit) :=
  [.connect, .connect, .join 0 "123456", .proceed 0, .proceed 0, .leave 0 "123456"] ++
    List.replicate 4 (.proceed 0)

/-- Before the first takes anything away the second joins. -/
def joinWhileLeaving : List (RoomOp Unit) :=
  leaveUnused ++ [.join 1 "123456", .proceed 1, .proceed 1] ++ List.replicate 3 (.proceed 0)

/-- The second joins after the hash is out and before the room is. -/
def joinWhileRetiring : List (RoomOp Unit) :=
  leaveUnused ++ [.proceed 0, .join 1 "123456", .proceed 1, .proceed 0, .proceed 0, .proceed 1]

/-- The worker reads the rooms before the first leaves, and pushes after. -/
def leaveWhileFanning : List (RoomOp Unit) :=
  leaveUnused.take 5 ++ [.receive ⟨"peer", (), 0, 0⟩ ["123456"]] ++ leaveUnused.drop 5 ++
    List.replicate 3 (.proceed 0) ++ List.replicate 3 .fan

/-- A client is subscribed to a room that the daemon has left; the node has the
hash of a room that is not stored; there is a bucket for such a room. -/
theorem not_agrees_of_races :
    (∃ daemon : DaemonRooms Unit, (system sampleHash {"123456", "567892"}).Reachable daemon ∧
        daemon.Quiet ∧ ¬ ∀ session ∈ daemon.sessions, session.subs ⊆ daemon.rooms) ∧
      (∃ daemon : DaemonRooms Unit, (system sampleHash {"123456", "567892"}).Reachable daemon ∧
        daemon.Quiet ∧ daemon.roomHashes ≠ daemon.rooms.image sampleHash) ∧
      ∃ daemon : DaemonRooms Unit, (system sampleHash {"123456", "567892"}).Reachable daemon ∧
        daemon.Quiet ∧ "123456" ∉ daemon.rooms ∧
          (daemon.queue.queues.lookup "123456").isSome := by
  have hstart : (system sampleHash {"123456", "567892"}).Reachable
      (new sampleHash ∅ : DaemonRooms Unit) := .init ⟨∅, Finset.empty_subset _, rfl⟩
  refine ⟨?_, ?_, ?_⟩
  · have hruns : ∃ daemon, joinWhileLeaving.foldlM (step sampleHash) (new sampleHash ∅) =
        some daemon := ⟨_, rfl⟩
    obtain ⟨daemon, hsteps⟩ := hruns
    refine ⟨daemon, hstart.run (.of_foldlM id hsteps), ?_⟩
    cases hsteps
    exact ⟨by decide, by decide⟩
  · have hruns : ∃ daemon, joinWhileRetiring.foldlM (step sampleHash) (new sampleHash ∅) =
        some daemon := ⟨_, rfl⟩
    obtain ⟨daemon, hsteps⟩ := hruns
    refine ⟨daemon, hstart.run (.of_foldlM id hsteps), ?_⟩
    cases hsteps
    exact ⟨by decide, by decide⟩
  · have hruns : ∃ daemon, leaveWhileFanning.foldlM (step sampleHash) (new sampleHash ∅) =
        some daemon := ⟨_, rfl⟩
    obtain ⟨daemon, hsteps⟩ := hruns
    refine ⟨daemon, hstart.run (.of_foldlM id hsteps), ?_⟩
    cases hsteps
    exact ⟨by decide, by decide, by decide⟩

/-- Two clients are in two rooms, a message is served, and the first leaves. -/
def leaveAfterFanning : List (RoomOp Unit) :=
  leaveUnused.take 5 ++ [.join 1 "567892", .proceed 1, .proceed 1] ++
    [.receive ⟨"peer", (), 0, 0⟩ ["123456", "567892"]] ++ List.replicate 4 .fan ++
    leaveUnused.drop 5 ++ List.replicate 3 (.proceed 0)

theorem agrees_of_reachable_left :
    ∃ daemon, leaveAfterFanning.foldlM (step sampleHash) (new sampleHash ∅) = some daemon ∧
      daemon.rooms = {"567892"} ∧ daemon.queue.len "567892" = 1 ∧
        daemon.Agrees sampleHash := by
  have hinj : Set.InjOn sampleHash ({"123456", "567892"} : Finset String) := by
    rw [Finset.coe_insert, Finset.coe_singleton, Set.injOn_pair]
    intro hsame
    exact absurd hsame (by decide)
  have hruns : ∃ daemon, leaveAfterFanning.foldlM
      (System.guarded (step sampleHash) (SteadyWithin sampleHash {"123456", "567892"}))
        (new sampleHash ∅) = some daemon := ⟨_, rfl⟩
  obtain ⟨daemon, hsteps⟩ := hruns
  have hstart : ((system sampleHash {"123456", "567892"}).restrict
      (SteadyWithin sampleHash {"123456", "567892"})).Reachable
        (new sampleHash ∅ : DaemonRooms Unit) := .init ⟨∅, Finset.empty_subset _, rfl⟩
  have hagrees := agrees_of_reachable hinj (hstart.run (.of_guarded id hsteps))
  cases hsteps
  exact ⟨_, rfl, by decide, by decide, hagrees (by decide)⟩

end DaemonRooms

end Mlink.Daemon
