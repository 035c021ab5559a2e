/-
# Rooms kept across restarts

The daemon writes the codes of its rooms to a file whenever one of them is added or
removed, and reads the file when it starts. The change comes first. Writing it down takes
several steps: the directory, the codes in order as JSON, a draft beside the file, the
rename. Any of them may fail, which is only logged, and the daemon may be stopped before
any of them.

A file that cannot be read or parsed counts as empty. The next change then writes the
rooms of this run over those of the runs before.
-/

import Mathlib.Data.Finset.Sort
import Mathlib.Data.String.Basic
import Mlink.Lib.AtomicReplace
import Mlink.Lib.Transition
import Mlink.Protocol.Codec

namespace Mlink.Daemon

open AtomicReplace (Job Writer)
open Mlink.Protocol
open Transition

structure RoomStore where
  rooms : Finset String
  deriving DecidableEq

namespace RoomStore

variable (serde : Serde (List String))

/-- The store that reading the file gives. -/
def load : Option (Except String Bytes) → RoomStore
  | none => ⟨∅⟩
  | some (.error _) => ⟨∅⟩
  | some (.ok bytes) =>
      match serde.fromSlice bytes with
      | .ok codes => ⟨codes.toFinset⟩
      | .error _ => ⟨∅⟩

/-- The text of a store, in order. -/
def toVecPretty (store : RoomStore) : Except String Bytes := serde.toVec store.rooms.sort

def insert (store : RoomStore) (code : String) : RoomStore := ⟨Insert.insert code store.rooms⟩

def erase (store : RoomStore) (code : String) : RoomStore := ⟨store.rooms.erase code⟩

end RoomStore

/-- The file and its draft, and the store of the daemon if it runs. `preparing` is the save
that has yet to make the directory. -/
structure StoreHost where
  disk : Writer UInt8
  store : Option RoomStore
  preparing : Bool
  /-- Every store there has been, and what the file held at first. -/
  held : List RoomStore
  /-- The codes changed since the file was written or read. -/
  unsaved : Finset String
  /-- Since then, a save has failed or the file could not be read. -/
  troubled : Bool
  deriving DecidableEq

inductive StoreEvent
  /-- The daemon starts and reads the file, if it can. -/
  | boot (readable : Bool)
  | add (code : String)
  | remove (code : String)
  | createDirAll
  /-- The draft is created, written in parts, and renamed. -/
  | create
  | write (count : Nat)
  | rename
  /-- What the save is about to do fails. -/
  | fail
  /-- The process ends, by itself or not. -/
  | stop
  deriving DecidableEq, Repr

namespace StoreHost

variable (serde : Serde (List String)) (host : StoreHost)

/-- Before the first daemon, with the file that there is. -/
def new (file : Option Bytes) : StoreHost :=
  ⟨⟨file, none, none⟩, none, false, [RoomStore.load serde (file.map .ok)], ∅, false⟩

/-- The store that a daemon would read now. -/
def reload : RoomStore := RoomStore.load serde (host.disk.file.map .ok)

/-- The store, unless a save holds its lock. -/
def ready : Option RoomStore :=
  if host.preparing || host.disk.job.isSome then none else host.store

def boot (readable : Bool) : StoreHost :=
  if readable then
    { host with
      store := some (host.reload serde)
      unsaved := ∅
      troubled := false }
  else
    let empty := RoomStore.load serde (some (.error "permission denied"))
    { host with
      store := some empty
      held := host.held ++ [empty]
      unsaved := (host.reload serde).rooms
      troubled := true }

/-- The set has changed by a code, and the save begins. -/
def change (code : String) (store : RoomStore) : StoreHost :=
  { host with
    store := some store
    preparing := true
    held := host.held ++ [store]
    unsaved := Insert.insert code host.unsaved }

/-- A step of the save fails, and with it the save. -/
def fail : StoreHost :=
  { host with
    disk := host.disk.abandon
    preparing := false
    troubled := true }

/-- The directory is there; the codes are put in order and printed. -/
def createDirAll (store : RoomStore) : StoreHost :=
  match store.toVecPretty serde with
  | .ok bytes => { host with disk := host.disk.start bytes, preparing := false }
  | .error _ => host.fail

/-- The draft becomes the file once all of it is written. -/
def rename : StoreHost :=
  match host.disk.job with
  | some (.drafting _ []) =>
      { host with
        disk := host.disk.rename
        unsaved := ∅
        troubled := false }
  | _ => host

def stop : StoreHost :=
  { host with
    disk := host.disk.abandon
    store := none
    preparing := false }

def step : StoreEvent → StoreHost
  | .boot readable => if host.store.isNone then host.boot serde readable else host
  | .add code =>
      match host.ready with
      | some store =>
          if code ∈ store.rooms then host else host.change code (store.insert code)
      | none => host
  | .remove code =>
      match host.ready with
      | some store =>
          if code ∈ store.rooms then host.change code (store.erase code) else host
      | none => host
  | .createDirAll =>
      match host.store with
      | some store => if host.preparing then host.createDirAll serde store else host
      | none => host
  | .create => { host with disk := host.disk.create }
  | .write count => { host with disk := host.disk.write count }
  | .rename => host.rename
  | .fail => if host.preparing || host.disk.job.isSome then host.fail else host
  | .stop => host.stop

def system (file : Option Bytes) : System StoreHost StoreEvent where
  init host := host = new serde file
  step source event target := target = source.step serde event

/-- What the file is worth. -/
structure Durable (file : Option Bytes) : Prop where
  /-- It is as it was at first, or all of the text of a store there has been. -/
  whole : host.disk.file = file ∨
    ∃ store ∈ host.held, ∃ bytes, store.toVecPretty serde = .ok bytes ∧
      host.disk.file = some bytes
  held : host.reload serde ∈ host.held
  /-- A restart loses and brings back what was unsaved and nothing else. -/
  exact : ∀ store, host.store = some store → ∀ code, code ∉ host.unsaved →
    (code ∈ (host.reload serde).rooms ↔ code ∈ store.rooms)
  /-- As long as the file system does its part, that is the one code whose save is not over
  yet. -/
  settled : host.troubled = false → host.unsaved.card ≤ 1
  ready : host.troubled = false → host.ready.isSome → host.unsaved = ∅

end StoreHost

/-! ## One save after the other -/

section Save

variable {serde : Serde (List String)} {host : StoreHost} {file : Option Bytes}

/-- What a store has printed reads back as the store. -/
theorem RoomStore.load_of_toVecPretty (lawful : serde.Lawful) {store : RoomStore} {bytes : Bytes}
    (hprinted : store.toVecPretty serde = .ok bytes) :
    RoomStore.load serde (some (.ok bytes)) = store := by
  have hread := lawful.fromSlice_of_toVec _ _ hprinted
  rw [RoomStore.load, hread]
  exact congrArg RoomStore.mk (store.rooms.sort_toFinset _)

/-- A host between two steps: besides what the file is worth, a save that has begun is one
of the store as it is. -/
structure StoreHost.Saving (serde : Serde (List String)) (file : Option Bytes)
    (host : StoreHost) : Prop extends host.Durable serde file where
  draft : host.disk.Whole
  current : ∀ store, host.store = some store → store ∈ host.held
  stopped : host.store = none → host.preparing = false ∧ host.disk.job = none
  job : ∀ content, host.disk.job.map Job.content = some content →
    ∃ store, host.store = some store ∧ store.toVecPretty serde = .ok content

namespace StoreHost.Saving

theorem new : (StoreHost.new serde file).Saving serde file where
  whole := .inl rfl
  held := List.mem_singleton.mpr rfl
  exact := nofun
  settled := fun _ => Nat.zero_le _
  ready := nofun
  draft := nofun
  current := nofun
  stopped := fun _ => ⟨rfl, rfl⟩
  job := nofun

variable (saving : host.Saving serde file)

include saving

/-- The draft goes on, and the file stays as it is. -/
theorem of_disk {disk : Writer UInt8} (draft : disk.Whole) (hfile : disk.file = host.disk.file)
    (hjob : disk.job.map Job.content = host.disk.job.map Job.content) :
    StoreHost.Saving serde file { host with disk } := by
  have hload : StoreHost.reload serde { host with disk } = host.reload serde := by
    rw [StoreHost.reload, hfile]
    rfl
  have hsome : disk.job.isSome = host.disk.job.isSome := by
    rw [← Option.isSome_map (f := Job.content), hjob, Option.isSome_map]
  constructor
  · constructor
    · show disk.file = file ∨ ∃ store ∈ host.held, ∃ bytes, _ ∧ disk.file = some bytes
      rw [hfile]
      exact saving.whole
    · rw [hload]
      exact saving.held
    · rw [hload]
      exact saving.exact
    · exact saving.settled
    · intro htrouble hready
      apply saving.ready htrouble
      rw [StoreHost.ready] at hready ⊢
      rwa [← hsome]
  · exact draft
  · exact saving.current
  · intro hnone
    obtain ⟨hpreparing, hidle⟩ := saving.stopped hnone
    refine ⟨hpreparing, ?_⟩
    rw [hidle] at hjob
    exact Option.map_eq_none_iff.mp hjob
  · intro content hcontent
    apply saving.job content
    rwa [← hjob]

/-- The daemon starts, and the memory is what the file gives, or nothing. -/
theorem boot (hstopped : host.store = none) (readable : Bool) :
    (host.boot serde readable).Saving serde file := by
  obtain ⟨hpreparing, hjob⟩ := saving.stopped hstopped
  cases readable with
  | true =>
      exact {
        whole := saving.whole
        held := saving.held
        exact := fun store hstore code _ => by
          cases hstore
          rfl
        settled := fun _ => Nat.zero_le _
        ready := fun _ _ => rfl
        draft := saving.draft
        current := fun store hstore => by
          cases hstore
          exact saving.held
        stopped := nofun
        job := fun content hcontent => by
          rw [StoreHost.boot, if_pos rfl, hjob] at hcontent
          cases hcontent }
  | false =>
      exact {
        whole := saving.whole.imp_right fun ⟨store, hstore, hprinted⟩ =>
          ⟨store, List.mem_append_left _ hstore, hprinted⟩
        held := List.mem_append_left _ saving.held
        exact := fun store hstore code hcode => by
          cases hstore
          exact iff_of_false hcode (Finset.notMem_empty code)
        settled := nofun
        ready := nofun
        draft := saving.draft
        current := fun store hstore => by
          cases hstore
          exact List.mem_append_right _ (List.mem_singleton.mpr rfl)
        stopped := nofun
        job := fun content hcontent => by
          rw [StoreHost.boot, if_neg Bool.false_ne_true, hjob] at hcontent
          cases hcontent }

/-- Between two saves, the set changes by a code. -/
theorem change {store next : RoomStore} (hready : host.ready = some store) {code : String}
    (others : ∀ other, other ≠ code → (other ∈ next.rooms ↔ other ∈ store.rooms)) :
    (host.change code next).Saving serde file := by
  have hidle : ¬ (host.preparing || host.disk.job.isSome) = true := fun hbusy => by
    rw [StoreHost.ready, if_pos hbusy] at hready
    cases hready
  have hstore : host.store = some store := by
    rwa [StoreHost.ready, if_neg hidle] at hready
  constructor
  · constructor
    · exact saving.whole.imp_right fun ⟨held, hheld, hprinted⟩ =>
        ⟨held, List.mem_append_left _ hheld, hprinted⟩
    · exact List.mem_append_left _ saving.held
    · intro other hother unchanged hunchanged
      cases hother
      obtain ⟨hne, hsaved⟩ := not_or.mp fun h => hunchanged (Finset.mem_insert.mpr h)
      exact (saving.exact store hstore unchanged hsaved).trans (others unchanged hne).symm
    · intro htrouble
      have hnone : host.unsaved = ∅ := saving.ready htrouble (by rw [hready]; rfl)
      show (Insert.insert code host.unsaved).card ≤ 1
      rw [hnone]
      exact le_rfl
    · nofun
  · exact saving.draft
  · intro other hother
    cases hother
    exact List.mem_append_right _ (List.mem_singleton.mpr rfl)
  · nofun
  · intro content hcontent
    refine absurd ?_ hidle
    rw [Bool.or_eq_true, ← Option.isSome_map (f := Job.content)]
    right
    exact Option.isSome_iff_exists.mpr ⟨content, hcontent⟩

/-- A save that fails leaves the file as it is. -/
theorem fail : host.fail.Saving serde file where
  whole := saving.whole
  held := saving.held
  exact := saving.exact
  settled := nofun
  ready := nofun
  draft := Writer.whole_abandon
  current := saving.current
  stopped := fun _ => ⟨rfl, rfl⟩
  job := nofun

theorem createDirAll {store : RoomStore} (hstore : host.store = some store) :
    (host.createDirAll serde store).Saving serde file := by
  rw [StoreHost.createDirAll]
  cases hprinted : store.toVecPretty serde with
  | error e => exact saving.fail
  | ok bytes =>
      exact {
        whole := saving.whole
        held := saving.held
        exact := saving.exact
        settled := saving.settled
        ready := nofun
        draft := Writer.whole_start bytes
        current := saving.current
        stopped := fun hnone => by
          rw [hstore] at hnone
          cases hnone
        job := fun content hcontent => by
          cases hcontent
          exact ⟨store, hstore, hprinted⟩ }

/-- Once the draft is the file, the file is the store. -/
theorem rename (lawful : serde.Lawful) : host.rename.Saving serde file := by
  rw [StoreHost.rename]
  split
  · rename_i content hjob
    rcases saving.draft.rename_cases with ⟨other, hother, hfile, hnone⟩ | ⟨_, hnever⟩
    · rw [hjob] at hother
      cases hother
      obtain ⟨store, hstore, hprinted⟩ := saving.job content (by rw [hjob]; rfl)
      have hload : RoomStore.load serde (host.disk.rename.file.map .ok) = store := by
        rw [hfile]
        exact RoomStore.load_of_toVecPretty lawful hprinted
      exact {
        whole := .inr ⟨store, saving.current store hstore, content, hprinted, hfile⟩
        held := by
          show RoomStore.load serde (host.disk.rename.file.map .ok) ∈ host.held
          rw [hload]
          exact saving.current store hstore
        exact := fun other hother code _ => by
          show code ∈ (RoomStore.load serde (host.disk.rename.file.map .ok)).rooms ↔ _
          rw [hload]
          have hsame : some store = some other := hstore.symm.trans hother
          cases hsame
          rfl
        settled := fun _ => Nat.zero_le _
        ready := fun _ _ => rfl
        draft := saving.draft.rename
        current := saving.current
        stopped := fun hstopped => ⟨(saving.stopped hstopped).1, hnone⟩
        job := fun left hleft => by
          rw [hnone] at hleft
          cases hleft }
    · exact absurd hjob (hnever content)
  · exact saving

theorem stop : host.stop.Saving serde file where
  whole := saving.whole
  held := saving.held
  exact := nofun
  settled := saving.settled
  ready := nofun
  draft := Writer.whole_abandon
  current := nofun
  stopped := fun _ => ⟨rfl, rfl⟩
  job := nofun

omit saving in
theorem step (lawful : serde.Lawful) (saving : host.Saving serde file) (event : StoreEvent) :
    (host.step serde event).Saving serde file := by
  cases event with
  | boot readable =>
      rw [StoreHost.step]
      split_ifs with hstopped
      · exact saving.boot (Option.isNone_iff_eq_none.mp hstopped) readable
      · exact saving
  | add code =>
      rw [StoreHost.step]
      split
      · rename_i store hready
        split_ifs
        · exact saving
        · apply saving.change hready
          intro other hother
          exact Finset.mem_insert.trans (or_iff_right hother)
      · exact saving
  | remove code =>
      rw [StoreHost.step]
      split
      · rename_i store hready
        split_ifs
        · apply saving.change hready
          intro other hother
          exact Finset.mem_erase.trans (and_iff_right hother)
        · exact saving
      · exact saving
  | createDirAll =>
      rw [StoreHost.step]
      split
      · rename_i store hstore
        split_ifs
        · exact saving.createDirAll hstore
        · exact saving
      · exact saving
  | create => exact saving.of_disk saving.draft.create (by simp) Writer.content_create
  | write count =>
      exact saving.of_disk (saving.draft.write count) (by simp) (Writer.content_write count)
  | rename => exact saving.rename lawful
  | fail =>
      rw [StoreHost.step]
      split_ifs
      · exact saving.fail
      · exact saving
  | stop => exact saving.stop

end StoreHost.Saving

end Save

namespace StoreHost

/-- Wherever the saves fail and the daemon is stopped, the file is the text of a store
there has been, and a restart loses and brings back what was unsaved and nothing else. -/
theorem durable_of_reachable {serde : Serde (List String)} (lawful : serde.Lawful)
    {file : Option Bytes} {host : StoreHost} (reached : (system serde file).Reachable host) :
    host.Durable serde file :=
  (reached.invariant (StoreHost.Saving serde file)
    (fun _ hstart => by
      rw [hstart]
      exact .new)
    fun _ event _ _ saving hstep => by
      rw [hstep]
      exact saving.step lawful event).toDurable

/-- The text of two sets of rooms, the empty one and that of the room `123456`. -/
def fewRooms : Serde (List String) where
  toVec
    | [] => .ok [91, 93]
    | ["123456"] => .ok [91, 10, 32, 32, 34, 49, 50, 51, 52, 53, 54, 34, 10, 93]
    | _ => .error "other rooms"
  fromSlice
    | [91, 93] => .ok []
    | [91, 10, 32, 32, 34, 49, 50, 51, 52, 53, 54, 34, 10, 93] => .ok ["123456"]
    | _ => .error "expected value at line 1 column 1"

theorem fewRooms_lawful : fewRooms.Lawful where
  fromSlice_of_toVec codes bytes hwritten := by
    dsimp only [fewRooms] at hwritten
    split at hwritten
    · cases hwritten
      rfl
    · cases hwritten
      rfl
    · cases hwritten

/-- A daemon that is stopped in the middle of its first save, and starts again. -/
def interrupted : List StoreEvent :=
  [.boot true, .add "123456", .createDirAll, .create, .write 5, .stop, .boot true]

theorem durable_of_reachable_interrupted :
    (interrupted.foldl (step fewRooms) (new fewRooms none)).Durable fewRooms none :=
  durable_of_reachable fewRooms_lawful
    ((System.Reachable.init rfl).run (.of_foldl (fun _ _ => rfl) _ interrupted))

end StoreHost

end Mlink.Daemon
