/-
# The ids of streams

A process draws the ids of its streams from two counters, one for each role that a node
can have towards a peer. Both go on by two, and one starts at zero and the other at one.
The role follows from a comparison of app uuids, which comes out differently on the two
ends.
-/

import Mathlib.Data.List.Induction
import Mathlib.Data.List.Nodup
import Mathlib.Data.String.Basic
import Mathlib.Logic.Function.Basic
import Mlink.Lib.Stride

namespace Mlink.Core

inductive Role
  | central | peripheral
  deriving DecidableEq, Repr

def negotiateRole (myUuid peerUuid : String) : Role :=
  if myUuid < peerUuid then .central else .peripheral

/-- The two ends of a pair have different roles. -/
theorem negotiateRole_ne {first second : String} (distinct : first ≠ second) :
    negotiateRole first second ≠ negotiateRole second first := by
  rw [negotiateRole, negotiateRole]
  rcases lt_trichotomy first second with hlt | heq | hgt
  · rw [if_pos hlt, if_neg hlt.asymm]
    decide
  · exact absurd heq distinct
  · rw [if_neg hgt.asymm, if_pos hgt]
    decide

end Mlink.Core

namespace Mlink.Api

open Mlink.Core

/-- The counters of a process. -/
structure StreamCounters where
  central : UInt16
  peripheral : UInt16
  deriving DecidableEq, Repr

namespace StreamCounters

def new : StreamCounters := ⟨0, 1⟩

variable (counters : StreamCounters)

def nextStreamIdCentral : UInt16 × StreamCounters :=
  (counters.central, { counters with central := counters.central + 2 })

def nextStreamIdPeripheral : UInt16 × StreamCounters :=
  (counters.peripheral, { counters with peripheral := counters.peripheral + 2 })

/-- The id of a stream of a node in that role. -/
def nextStreamId : Role → UInt16 × StreamCounters
  | .central => counters.nextStreamIdCentral
  | .peripheral => counters.nextStreamIdPeripheral

def counter : Role → UInt16
  | .central => counters.central
  | .peripheral => counters.peripheral

end StreamCounters

/-- A node opens a stream to a peer, in some process. -/
structure Allocation where
  process : Nat
  myUuid : String
  peerUuid : String
  deriving DecidableEq, Repr

def Allocation.role (allocation : Allocation) : Role :=
  negotiateRole allocation.myUuid allocation.peerUuid

/-- Any number of processes, with all ids that were drawn in them. -/
structure Streams where
  counters : Nat → StreamCounters
  drawn : List (Allocation × UInt16)

namespace Streams

def start : Streams := ⟨fun _ => .new, []⟩

def allocate (streams : Streams) (allocation : Allocation) : Streams :=
  let next := (streams.counters allocation.process).nextStreamId allocation.role
  ⟨Function.update streams.counters allocation.process next.2,
    streams.drawn ++ [(allocation, next.1)]⟩

def after (allocations : List Allocation) : Streams := allocations.foldl allocate start

variable (streams : Streams)

/-- The ids that were drawn from one counter. -/
def drawnFrom (process : Nat) (role : Role) : List UInt16 :=
  (streams.drawn.filter fun draw => draw.1.process = process ∧ draw.1.role = role).map Prod.snd

/-- The ids that a node has drawn for its streams to a peer. -/
def idsOf (myUuid peerUuid : String) : List UInt16 :=
  (streams.drawn.filter fun draw => draw.1.myUuid = myUuid ∧ draw.1.peerUuid = peerUuid).map
    Prod.snd

end Streams

/-! ## What a counter yields -/

/-- What the counter of a role starts at. -/
def firstOf : Role → Nat
  | .central => 0
  | .peripheral => 1

/-- The id that a counter yields after so many others. -/
def streamId (role : Role) (index : Nat) : UInt16 :=
  UInt16.ofNat (Stride.term (2 ^ 16) 2 (firstOf role) index)

theorem toNat_streamId (role : Role) (index : Nat) :
    (streamId role index).toNat = Stride.term (2 ^ 16) 2 (firstOf role) index :=
  UInt16.toNat_ofNat_of_lt' (Nat.mod_lt _ (by decide))

theorem streamId_add_two (role : Role) (index : Nat) :
    streamId role index + 2 = streamId role (index + 1) := by
  apply UInt16.toNat_inj.mp
  rw [UInt16.toNat_add, toNat_streamId, toNat_streamId]
  exact Stride.term_succ index

/-- The role can be read off an id. -/
theorem toNat_streamId_mod_two (role : Role) (index : Nat) :
    (streamId role index).toNat % 2 = firstOf role := by
  rw [toNat_streamId, Stride.term_mod (by decide)]
  cases role <;> rfl

/-- Every counter has yielded its first ids, and yields the one after them next. -/
def Regular (streams : Streams) : Prop :=
  ∀ process role, ∃ count,
    streams.drawnFrom process role = (List.range count).map (streamId role) ∧
      (streams.counters process).counter role = streamId role count

section Runs

variable {streams : Streams}

theorem regular_start : Regular .start := by
  intro process role
  refine ⟨0, rfl, ?_⟩
  cases role <;> rfl

/-- An allocation draws from one counter what that counter holds. -/
theorem drawnFrom_allocate (allocation : Allocation) (process : Nat) (role : Role) :
    (streams.allocate allocation).drawnFrom process role =
      streams.drawnFrom process role ++
        if allocation.process = process ∧ allocation.role = role then
          [(streams.counters process).counter role] else [] := by
  rw [Streams.drawnFrom, Streams.allocate, List.filter_append, List.map_append]
  refine congrArg (streams.drawnFrom process role ++ ·) ?_
  split_ifs with hhere
  · obtain ⟨rfl, rfl⟩ := hhere
    rw [List.filter_cons_of_pos (by simp)]
    cases allocation.role <;> rfl
  · rw [List.filter_cons_of_neg (by simpa using hhere)]
    rfl

/-- And that counter goes on by two. -/
theorem counter_allocate (allocation : Allocation) (process : Nat) (role : Role) :
    ((streams.allocate allocation).counters process).counter role =
      if allocation.process = process ∧ allocation.role = role then
        (streams.counters process).counter role + 2
      else (streams.counters process).counter role := by
  rw [Streams.allocate]
  dsimp only
  by_cases hprocess : process = allocation.process
  · subst hprocess
    rw [Function.update_self]
    cases allocation.role <;> cases role <;>
      simp [StreamCounters.nextStreamId, StreamCounters.nextStreamIdCentral,
        StreamCounters.nextStreamIdPeripheral, StreamCounters.counter]
  · rw [Function.update_of_ne hprocess, if_neg]
    exact fun hhere => hprocess hhere.1.symm

theorem Regular.allocate (regular : Regular streams) (allocation : Allocation) :
    Regular (streams.allocate allocation) := by
  intro process role
  obtain ⟨count, hdrawn, hcounter⟩ := regular process role
  rw [drawnFrom_allocate, counter_allocate, hdrawn, hcounter]
  split_ifs
  · exact ⟨count + 1, by rw [List.range_succ, List.map_append, List.map_singleton],
      streamId_add_two role count⟩
  · exact ⟨count, List.append_nil _, rfl⟩

theorem regular_after (allocations : List Allocation) : Regular (.after allocations) := by
  induction allocations using List.reverseRecOn with
  | nil => exact regular_start
  | append_singleton allocations allocation ih =>
      rw [Streams.after, List.foldl_concat]
      exact ih.allocate allocation

/-- The ids of a node for a peer tell its role towards that peer. -/
theorem Regular.toNat_mod_two (regular : Regular streams) {myUuid peerUuid : String} {id : UInt16}
    (hid : id ∈ streams.idsOf myUuid peerUuid) :
    id.toNat % 2 = firstOf (negotiateRole myUuid peerUuid) := by
  obtain ⟨⟨allocation, drawn⟩, hmem, rfl⟩ := List.mem_map.mp hid
  obtain ⟨hdraw, hpair⟩ := List.mem_filter.mp hmem
  obtain ⟨rfl, rfl⟩ := of_decide_eq_true hpair
  obtain ⟨count, hdrawn, _⟩ := regular allocation.process allocation.role
  have hfrom : drawn ∈ streams.drawnFrom allocation.process allocation.role :=
    List.mem_map.mpr ⟨(allocation, drawn), List.mem_filter.mpr ⟨hdraw, by simp⟩, rfl⟩
  rw [hdrawn] at hfrom
  obtain ⟨index, _, rfl⟩ := List.mem_map.mp hfrom
  exact toNat_streamId_mod_two allocation.role index

/-- One turn of a counter has no id twice. -/
theorem Regular.nodup_window (regular : Regular streams) (process : Nat) (role : Role)
    (skipped : Nat) :
    (((streams.drawnFrom process role).drop skipped).take 32768).Nodup := by
  obtain ⟨count, hdrawn, _⟩ := regular process role
  rw [hdrawn, List.nodup_iff_getElem?_ne_getElem?]
  intro index later hbehind hlater
  rw [List.length_take, List.length_drop, List.length_map, List.length_range] at hlater
  have hids : ∀ place, place ≤ later →
      ((((List.range count).map (streamId role)).drop skipped).take 32768)[place]? =
        some (streamId role (skipped + place)) := by
    intro place hplace
    rw [List.getElem?_take_of_lt (by omega), List.getElem?_drop, List.getElem?_map,
      List.getElem?_range (by omega), Option.map_some]
  rw [hids index hbehind.le, hids later le_rfl]
  intro hsame
  have hterms := congrArg UInt16.toNat (Option.some.inj hsame)
  rw [toNat_streamId, toNat_streamId] at hterms
  exact Stride.term_ne (by decide) (by omega) (by omega) hterms

end Runs

/-- However many streams are opened, in whichever processes: the ids of two nodes for
streams to each other are disjoint, and of the ids from one counter any 32768 that follow
one another are different. -/
theorem streamIds_disjoint (allocations : List Allocation) {first second : String}
    (distinct : first ≠ second) :
    List.Disjoint ((Streams.after allocations).idsOf first second)
        ((Streams.after allocations).idsOf second first) ∧
      ∀ process role skipped,
        ((((Streams.after allocations).drawnFrom process role).drop skipped).take 32768).Nodup := by
  have hregular := regular_after allocations
  refine ⟨?_, hregular.nodup_window⟩
  intro id hfirst hsecond
  have hparity : firstOf (negotiateRole first second) = firstOf (negotiateRole second first) := by
    rw [← hregular.toNat_mod_two hfirst, hregular.toNat_mod_two hsecond]
  apply negotiateRole_ne distinct
  cases hrole : negotiateRole first second <;> cases hother : negotiateRole second first <;>
    rw [hrole, hother] at hparity <;> first | rfl | cases hparity

/-- Two nodes open streams to each other. -/
def bothWays : List Allocation := [⟨0, "a", "b"⟩, ⟨1, "b", "a"⟩, ⟨0, "a", "b"⟩]

theorem streamIds_disjoint_bothWays :
    ((Streams.after bothWays).idsOf "a" "b" = [0, 2] ∧
      (Streams.after bothWays).idsOf "b" "a" = [1]) ∧
      List.Disjoint ((Streams.after bothWays).idsOf "a" "b")
          ((Streams.after bothWays).idsOf "b" "a") ∧
        ∀ process role skipped,
          ((((Streams.after bothWays).drawnFrom process role).drop skipped).take 32768).Nodup :=
  ⟨by decide, streamIds_disjoint bothWays (by decide)⟩

end Mlink.Api
