/-
# Racing the links of a session

`read_any` polls one `read` on each link in a biased select: the acknowledgement
timer first, then the links in order. The first branch that is ready wins, and
the other links' pending reads are dropped. `recv` calls it again and again.
-/

import Mlink.Lib.Entries
import Mlink.Lib.Transition
import Mlink.Transport.Stream

namespace Mlink.Core

open Mlink.Protocol Mlink.Transport Transition

/-- The connections behind the links of a session, in the order of its list. -/
abbrev LinkConnections := List StreamConnection

/-- Which branch won, and what it returned. -/
inductive Won
  | timer
  | link (index : Nat) (result : Result Bytes)
  deriving DecidableEq, Repr

namespace LinkConnections

/-- Poll the links in order, up to the first that is ready. -/
def selectAll : LinkConnections → Option Won × LinkConnections
  | [] => (none, [])
  | connection :: rest =>
      match connection.read with
      | (some result, connection) => (some (.link 0 result), connection :: rest)
      | (none, connection) =>
          let (won, rest) := selectAll rest
          let won := match won with
            | some (.link index result) => some (.link (index + 1) result)
            | other => other
          (won, connection :: rest)

/-- Poll every branch once: what has won, if anything, and the links before
their pending reads are dropped. -/
def pollBranches (links : LinkConnections) (timerFired : Bool) : Option Won × LinkConnections :=
  if timerFired then (some .timer, links) else selectAll links

/-- Poll the select. When a branch has won, the futures of the others are
dropped with it. -/
def pollReadAny (links : LinkConnections) (timerFired : Bool) : Option Won × LinkConnections :=
  match links.pollBranches timerFired with
  | (some won, links) => (some won, links.map StreamConnection.dropRead)
  | (none, links) => (none, links)

end LinkConnections

/-- What happens on the connections of a session: the peers write and close, the
network brings bytes, and the reading end polls its select. -/
inductive LinksOp
  | write (link : Nat) (data : Bytes)
  | deliver (link count : Nat)
  | close (link : Nat)
  | poll (timerFired : Bool)
  deriving DecidableEq, Repr

namespace LinkConnections

def step (links : LinkConnections) : LinksOp → LinkConnections
  | .write link data => links.modify link fun connection => (connection.write data).2
  | .deliver link count => links.modify link fun connection => connection.deliver count
  | .close link => links.modify link StreamConnection.close
  | .poll timerFired => (links.pollReadAny timerFired).2

/-- The session's links from their opening, under any order of operations. -/
def system (peerIds : List String) : Transition.System LinkConnections LinksOp where
  init links := links = peerIds.map StreamConnection.new
  step source op target := target = source.step op

/-- On every link, the messages read are the first of the messages written. -/
def InStep (links : LinkConnections) : Prop := ∀ connection ∈ links, connection.InStep

/-- A poll of the select that ends it finds no link with a `read` that has
consumed part of a message. -/
def DropsNothing (links : LinkConnections) : LinksOp → Prop
  | .poll timerFired => (links.pollBranches timerFired).1.isSome = true →
      ∀ connection ∈ (links.pollBranches timerFired).2, connection.heldBack = []
  | .write _ _ | .deliver _ _ | .close _ => True

instance (links : LinkConnections) : Decidable links.InStep :=
  inferInstanceAs (Decidable (∀ connection ∈ links, connection.InStep))

instance (links : LinkConnections) (op : LinksOp) : Decidable (links.DropsNothing op) :=
  match op with
  | .poll timerFired =>
      inferInstanceAs (Decidable ((links.pollBranches timerFired).1.isSome = true →
        ∀ connection ∈ (links.pollBranches timerFired).2, connection.heldBack = []))
  | .write _ _ | .deliver _ _ | .close _ => inferInstanceAs (Decidable True)

/-- Polling in order reads some of the links and leaves the others alone. -/
theorem selectAll_framed {links : LinkConnections}
    (framed : ∀ connection ∈ links, connection.Framed) :
    ∀ connection ∈ (selectAll links).2, connection.Framed := by
  induction links with
  | nil => exact framed
  | cons head rest ih =>
      have hhead := StreamConnection.read_framed (framed head List.mem_cons_self)
      have hrest : ∀ connection ∈ rest, connection.Framed := fun connection hmem =>
        framed connection (List.mem_cons_of_mem _ hmem)
      rcases hread : head.read with ⟨result, after⟩
      rw [hread] at hhead
      intro connection hmem
      cases result with
      | some result =>
          simp only [selectAll, hread, List.mem_cons] at hmem
          rcases hmem with rfl | hmem
          · exact hhead
          · exact hrest connection hmem
      | none =>
          simp only [selectAll, hread, List.mem_cons] at hmem
          rcases hmem with rfl | hmem
          · exact hhead
          · exact ih hrest connection hmem

/-- A poll of the select that drops nothing keeps every link in step. -/
theorem pollReadAny_framed {links : LinkConnections} {timerFired : Bool}
    (framed : ∀ connection ∈ links, connection.Framed)
    (harmless : links.DropsNothing (.poll timerFired)) :
    ∀ connection ∈ (links.pollReadAny timerFired).2, connection.Framed := by
  have hpolled : ∀ connection ∈ (links.pollBranches timerFired).2, connection.Framed := by
    cases timerFired with
    | true => exact framed
    | false => exact selectAll_framed framed
  rw [DropsNothing] at harmless
  rcases hbranches : links.pollBranches timerFired with ⟨won, polled⟩
  rw [hbranches] at hpolled harmless
  intro connection hmem
  cases won with
  | none =>
      simp only [pollReadAny, hbranches] at hmem
      exact hpolled connection hmem
  | some won =>
      simp only [pollReadAny, hbranches, List.mem_map] at hmem
      obtain ⟨pending, hpending, rfl⟩ := hmem
      exact StreamConnection.dropRead_framed (hpolled pending hpending)
        (harmless rfl pending hpending)

/-- One step that drops nothing. -/
theorem step_framed {links : LinkConnections}
    (framed : ∀ connection ∈ links, connection.Framed) {op : LinksOp}
    (harmless : links.DropsNothing op) : ∀ connection ∈ links.step op, connection.Framed := by
  cases op with
  | write link data =>
      exact Entries.forall_mem_modify framed fun _ hold => StreamConnection.write_framed hold data
  | deliver link count =>
      exact Entries.forall_mem_modify framed fun _ hold =>
        StreamConnection.deliver_framed hold count
  | close link =>
      exact Entries.forall_mem_modify framed fun _ hold => StreamConnection.close_framed hold
  | poll timerFired => exact pollReadAny_framed framed harmless

/-- In every run whose selects end only while no pending `read` has consumed
part of a message, what has been read of each connection is a prefix of what was
written to it. -/
theorem inStep_of_reachable {peerIds : List String} {links : LinkConnections}
    (reached : ((system peerIds).restrict DropsNothing).Reachable links) : links.InStep := by
  have hframed : ∀ connection ∈ links, connection.Framed := by
    refine reached.invariant (fun links => ∀ connection ∈ links, connection.Framed) ?_ ?_
    · rintro _ rfl connection hmem
      obtain ⟨peerId, _, rfl⟩ := List.mem_map.mp hmem
      exact StreamConnection.new_framed peerId
    · rintro source op _ _ framed ⟨rfl, harmless⟩
      exact step_framed framed harmless
  intro connection hmem
  exact (hframed connection hmem).inStep

/-! ## A timer between a length and its body -/

/-- The state after a list of operations. -/
def after (links : LinkConnections) (ops : List LinksOp) : LinkConnections := ops.foldl step links

/-- Any operations, one after the other, make a run. -/
theorem reachable_after {peerIds : List String} {links : LinkConnections}
    (reached : (system peerIds).Reachable links) (ops : List LinksOp) :
    (system peerIds).Reachable (links.after ops) :=
  reached.run (.of_foldl (fun _ _ => rfl) links ops)

/-- Two messages are written, and the timer fires when the length of the first
has been read and its body has not arrived. -/
def timerBetween : LinkConnections :=
  after [StreamConnection.new "a"]
    [.write 0 [0, 0, 0, 3], .write 0 [104, 105], .deliver 0 4, .poll false, .poll true,
      .deliver 0 10, .poll false]

/-- The body of the first message is read as a length, and the zeros of the
second one's length come out as a message. -/
theorem not_inStep_timerBetween :
    (system ["a"]).Reachable timerBetween ∧
      timerBetween.map StreamConnection.returned = [[[0, 0, 0]]] ∧ ¬ timerBetween.InStep :=
  ⟨reachable_after (.init rfl) _, by decide, by decide⟩

/-- The same messages, while no timer fires. -/
theorem inStep_of_reachable_undisturbed :
    InStep (after [StreamConnection.new "a"]
      [.write 0 [0, 0, 0, 3], .deliver 0 4, .poll false, .deliver 0 10, .poll false]) := by
  let ops : List LinksOp :=
    [.write 0 [0, 0, 0, 3], .deliver 0 4, .poll false, .deliver 0 10, .poll false]
  have hrun : ((system ["a"]).restrict DropsNothing).Run [StreamConnection.new "a"] ops
      (after [StreamConnection.new "a"] ops) := ?_
  · exact inStep_of_reachable (.run (.init rfl) hrun)
  iterate 5 refine .cons ⟨rfl, by decide⟩ ?_
  exact .nil _

end LinkConnections

end Mlink.Core
