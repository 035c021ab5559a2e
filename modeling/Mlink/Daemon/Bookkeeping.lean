/-
# The books of the connect loop

The loop's tables say which wires it will not dial, and for which peer. The node
tells the loop through a bounded channel of events when a peer is gone. Between
arms every wire that is skipped belongs to a connected peer whose disconnect the
loop has not passed over, exactly as long as it meets no gap in the events while a
wire is skipped: after a gap the wires are no longer known to belong to anyone,
and no event will free them.
-/

import Mlink.Daemon.ConnectLoop
import Mlink.Lib.Lookup
import Mlink.Lib.Transition

namespace Mlink.Daemon

open Mlink.Core Mlink.Protocol Transition

/-- How many events the node's channel retains. -/
def EVENT_CAPACITY : Nat := 128

namespace ConnectTables

variable (tables : ConnectTables) (wireId app peerId : String)

/-- The loop skips the wire whatever it is mapped to. -/
def Engages : Prop := wireId ∈ tables.engaged ∨ wireId ∈ tables.connectedInbound

instance : Decidable (tables.Engages wireId) := inferInstanceAs (Decidable (_ ∨ _))

variable {tables wireId app peerId}

/-- A wire is forgotten with its peer when it is mapped to the peer. -/
theorem mem_deadWires_iff :
    wireId ∈ (tables.wireToApp.entries.filter fun entry => entry.2 = peerId).map Sigma.fst ↔
      tables.wireToApp.lookup wireId = some peerId := by
  rw [← Option.mem_def, AList.mem_lookup_iff]
  simp

/-- A disconnect takes out the mappings to the peer. -/
theorem lookup_peerDisconnected :
    (tables.peerDisconnected peerId).wireToApp.lookup wireId =
      if tables.wireToApp.lookup wireId = some peerId then none
      else tables.wireToApp.lookup wireId := by
  rw [peerDisconnected, Lookup.lookup_foldl_erase]
  simp only [mem_deadWires_iff]

/-- It frees the wires that were mapped to the peer. -/
theorem engages_peerDisconnected_iff :
    (tables.peerDisconnected peerId).Engages wireId ↔
      tables.Engages wireId ∧ tables.wireToApp.lookup wireId ≠ some peerId := by
  simp only [Engages, peerDisconnected, Finset.mem_filter, mem_deadWires_iff]
  tauto

/-- A wire of a peer that has gone is not skipped. -/
theorem skips_peerDisconnected (mapped : tables.wireToApp.lookup wireId = some peerId) :
    (tables.peerDisconnected peerId).skips wireId = false := by
  have hfree : ¬(tables.peerDisconnected peerId).Engages wireId := by
    rw [engages_peerDisconnected_iff]
    simp [mapped]
  have hlookup : (tables.peerDisconnected peerId).wireToApp.lookup wireId = none := by
    rw [lookup_peerDisconnected, if_pos mapped]
  rw [Engages, not_or] at hfree
  simp [skips, hfree.1, hfree.2, hlookup]

/-- An arm that has reached a peer maps its wire and no other. -/
theorem lookup_connected (other : String) :
    (tables.connected wireId app).wireToApp.lookup other =
      if other = wireId then some app else tables.wireToApp.lookup other := by
  by_cases hother : other = wireId
  · rw [if_pos hother, hother]
    exact AList.lookup_insert _
  · rw [if_neg hother]
    exact AList.lookup_insert_ne hother

/-- A dial that begins engages its wire, which no accepted connection has. -/
theorem beginDial_eq_some {after : ConnectTables} (begun : tables.beginDial wireId = some after) :
    wireId ∉ tables.connectedInbound ∧ after.connectedInbound = tables.connectedInbound ∧
      after.engaged = insert wireId tables.engaged ∧ after.wireToApp = tables.wireToApp ∧
      after.connectedPeers = tables.connectedPeers := by
  rw [beginDial] at begun
  split_ifs at begun with hskips
  rw [skips, Bool.or_eq_true, Bool.or_eq_true, not_or, not_or] at hskips
  obtain ⟨⟨hinbound, _⟩, _⟩ := hskips
  simp only [decide_eq_true_eq] at hinbound
  dsimp only at begun
  split_ifs at begun
  cases begun
  exact ⟨hinbound, rfl, rfl, rfl, rfl⟩

variable (tables wireId) in
/-- A dial that fails, for whatever reason, releases its wire. -/
theorem dialDone_error (e : MlinkError) :
    ∃ attempts, tables.dialDone wireId (.error e) =
      { tables with attempts, engaged := tables.engaged.erase wireId } := by
  cases e with
  | roomMismatch _ => exact ⟨_, rfl⟩
  | _ => exact ⟨tables.attempts, rfl⟩

end ConnectTables

/-! ## The loop and its events -/

/-- A connect loop, the count of node events that it has received, and for each
wire what that count was when an arm last connected it. -/
structure EventLoop where
  loop : ConnectLoop
  read : Nat
  entered : AList fun _ : String => Nat

/-- One step of a run. The node goes its own way and publishes events; the scanner
and the listener queue what they find; an arm ends with any result. -/
inductive LoopStep
  | node (next : Node) (published : List NodeEvent)
  | queue (peers : List DiscoveredPeer) (conns : List (ConnId × String))
  | takePeer (now : Instant)
  | takeConn (now : Instant)
  | finish (result : Result String)
  | recv

namespace EventLoop

/-- A loop that has just subscribed to the node's events. -/
def start (node : Node) : EventLoop := ⟨.new node, node.events.length, ∅⟩

variable (run : EventLoop)

def events : List NodeEvent := run.loop.node.events

/-- The channel has dropped an event that the loop has not received. -/
def Lags : Prop := run.read + EVENT_CAPACITY < run.events.length

instance : Decidable run.Lags := inferInstanceAs (Decidable (_ < _))

/-- Receive the next event, or learn of a gap and go on with the oldest event that
the channel retains. -/
def recv : Option EventLoop :=
  if run.Lags then
    run.loop.handleLagged.map fun loop =>
      { run with loop, read := run.events.length - EVENT_CAPACITY }
  else do
    let event ← run.events[run.read]?
    let loop ← run.loop.handleEvent event
    some { run with loop, read := run.read + 1 }

/-- Leave the arm; an arm that has reached a peer connects its wire. -/
def finish (result : Result String) : EventLoop :=
  { run with
    loop := run.loop.finish run.loop.node result
    entered := match run.loop.arm.awaited?, result with
      | some awaited, .ok _ => run.entered.insert awaited.wireId run.read
      | _, _ => run.entered }

/-- The state after a step; one that cannot be taken changes nothing. -/
def after (run : EventLoop) : LoopStep → EventLoop
  | .node next published =>
      { run with
        loop := { run.loop with node := { next with events := run.events ++ published } } }
  | .queue peers conns =>
      { run with
        loop := { run.loop with
          peerRx := run.loop.peerRx ++ peers
          acceptedRx := run.loop.acceptedRx ++ conns } }
  | .takePeer now => { run with loop := (run.loop.takePeer now).getD run.loop }
  | .takeConn now => { run with loop := (run.loop.takeConn now).getD run.loop }
  | .finish result => run.finish result
  | .recv => run.recv.getD run

/-! ## What the books owe -/

/-- Since the wire was connected, the loop has not passed over a disconnect of the
peer: if the node has published one, it is still to be received. -/
def StillHere (wireId app : String) : Prop :=
  ∃ since, run.entered.lookup wireId = some since ∧
    ∀ index, since ≤ index → index < run.read →
      run.events[index]? ≠ some (.peerDisconnected app)

/-- The wire belongs to a connected peer that has not gone. -/
def Belongs (wireId : String) : Prop :=
  ∃ app, run.loop.tables.wireToApp.lookup wireId = some app ∧
    app ∈ run.loop.tables.connectedPeers ∧ run.StillHere wireId app

/-- Between arms, every engaged wire belongs to a peer. -/
def Accounted : Prop :=
  run.loop.arm = .select → ∀ wireId, run.loop.tables.Engages wireId → run.Belongs wireId

/-- A gap is met only while no wire is engaged. -/
def GapFree (run : EventLoop) : LoopStep → Prop
  | .recv => run.loop.arm = .select → run.Lags → ∀ wireId, ¬run.loop.tables.Engages wireId
  | _ => True

/-- What holds in every run without such a gap, in an arm too: only the wire of the
arm may be engaged and belong to no one, and a mapped wire's peer is connected. -/
structure Books (run : EventLoop) : Prop where
  bound : run.read ≤ run.events.length
  belongs : ∀ wireId, run.loop.tables.Engages wireId →
    (∃ awaited ∈ run.loop.arm.awaited?, awaited.wireId = wireId) ∨ run.Belongs wireId
  connected : ∀ wireId app, run.loop.tables.wireToApp.lookup wireId = some app →
    app ∈ run.loop.tables.connectedPeers
  dialled : ∀ awaited, run.loop.arm = .dial awaited →
    awaited.wireId ∉ run.loop.tables.connectedInbound

variable {run}

theorem books_start (node : Node) : (start node).Books where
  bound := Nat.le_refl _
  belongs := by
    intro wireId hengages
    simp [ConnectTables.Engages, start, ConnectLoop.new, ConnectTables.new] at hengages
  connected := by
    intro wireId app hmapped
    cases hmapped
  dialled := by
    intro awaited hdial
    cases hdial

/-- Between arms the books are what is promised. -/
theorem Books.accounted (books : run.Books) : run.Accounted := by
  intro hselect wireId hengages
  rcases books.belongs wireId hengages with ⟨awaited, hawaited, _⟩ | hbelongs
  · rw [hselect] at hawaited
    cases hawaited
  · exact hbelongs

/-- What the node publishes is still to be received. -/
theorem belongs_node (bound : run.read ≤ run.events.length) (next : Node)
    (published : List NodeEvent) {wireId : String} (belongs : run.Belongs wireId) :
    (run.after (.node next published)).Belongs wireId := by
  obtain ⟨app, hmapped, hpeer, since, hsince, hunread⟩ := belongs
  refine ⟨app, hmapped, hpeer, since, hsince, ?_⟩
  intro index hfrom hread
  show (run.events ++ published)[index]? ≠ _
  have hread : index < run.read := hread
  rw [List.getElem?_append_left (by omega)]
  exact hunread index hfrom hread

theorem books_node (books : run.Books) (next : Node) (published : List NodeEvent) :
    (run.after (.node next published)).Books where
  bound := by
    show run.read ≤ (run.events ++ published).length
    rw [List.length_append]
    exact Nat.le_add_right_of_le books.bound
  belongs := by
    intro wireId hengages
    exact (books.belongs wireId hengages).imp_right (belongs_node books.bound next published)
  connected := books.connected
  dialled := books.dialled

/-- A dial begins for a wire that no accepted connection has. -/
theorem books_takePeer (books : run.Books) (now : Instant) :
    (run.after (.takePeer now)).Books := by
  cases htaken : run.loop.takePeer now with
  | none =>
      rw [after, htaken]
      exact books
  | some loop =>
      rw [after, htaken, Option.getD_some]
      cases harm : run.loop.arm with
      | dial awaited => simp [ConnectLoop.takePeer, harm] at htaken
      | accept awaited => simp [ConnectLoop.takePeer, harm] at htaken
      | select =>
          have haccounted := books.accounted harm
          cases hpeers : run.loop.peerRx with
          | nil => simp [ConnectLoop.takePeer, harm, hpeers] at htaken
          | cons peer rest =>
              cases hdial : run.loop.tables.beginDial peer.id with
              | none =>
                  simp only [ConnectLoop.takePeer, harm, hpeers, hdial, Option.some.injEq]
                    at htaken
                  subst htaken
                  exact ⟨books.bound, fun wireId hengages => .inr (haccounted wireId hengages),
                    books.connected, by simp⟩
              | some tables =>
                  simp only [ConnectLoop.takePeer, harm, hpeers, hdial, Option.some.injEq]
                    at htaken
                  subst htaken
                  obtain ⟨hfree, hinbound, hengaged, hmapped, hconnected⟩ :=
                    ConnectTables.beginDial_eq_some hdial
                  refine ⟨books.bound, ?_, ?_, ?_⟩
                  · intro wireId hengages
                    by_cases hown : peer.id = wireId
                    · exact .inl ⟨_, rfl, hown⟩
                    · right
                      have hbefore : run.loop.tables.Engages wireId := by
                        simpa [ConnectTables.Engages, hinbound, hengaged, Ne.symm hown]
                          using hengages
                      simpa [Belongs, StillHere, events, hmapped, hconnected,
                        Node.setPeerState] using haccounted wireId hbefore
                  · rw [hmapped, hconnected]
                    exact books.connected
                  · intro awaited hdialled
                    cases hdialled
                    rw [hinbound]
                    exact hfree

/-- An accept engages its wire. -/
theorem books_takeConn (books : run.Books) (now : Instant) :
    (run.after (.takeConn now)).Books := by
  cases htaken : run.loop.takeConn now with
  | none =>
      rw [after, htaken]
      exact books
  | some loop =>
      rw [after, htaken, Option.getD_some]
      cases harm : run.loop.arm with
      | dial awaited => simp [ConnectLoop.takeConn, harm] at htaken
      | accept awaited => simp [ConnectLoop.takeConn, harm] at htaken
      | select =>
          have haccounted := books.accounted harm
          cases hconns : run.loop.acceptedRx with
          | nil => simp [ConnectLoop.takeConn, harm, hconns] at htaken
          | cons head rest =>
              simp only [ConnectLoop.takeConn, harm, hconns, Option.some.injEq] at htaken
              subst htaken
              refine ⟨books.bound, ?_, books.connected, by simp⟩
              intro wireId hengages
              by_cases hown : head.2 = wireId
              · exact .inl ⟨_, rfl, hown⟩
              · right
                have hbefore : run.loop.tables.Engages wireId := by
                  simpa [ConnectTables.Engages, ConnectTables.beginAccept, Ne.symm hown]
                    using hengages
                exact haccounted wireId hbefore

/-- An arm that has reached a peer hands its wire to the peer. -/
theorem books_connected (books : run.Books) {awaited : Awaited}
    (hawaited : run.loop.arm.awaited? = some awaited) (app : String) :
    Books ⟨{ run.loop with
        tables := run.loop.tables.connected awaited.wireId app, arm := .select },
      run.read, run.entered.insert awaited.wireId run.read⟩ where
  bound := books.bound
  belongs := by
    intro wireId hengages
    right
    by_cases hown : wireId = awaited.wireId
    · refine ⟨app, ?_, Finset.mem_insert_self _ _, run.read, ?_, ?_⟩
      · rw [ConnectTables.lookup_connected, if_pos hown]
      · rw [hown]
        exact AList.lookup_insert _
      · -- nothing has been received since
        intro index hfrom hread
        exact absurd hread (Nat.not_lt.mpr hfrom)
    · have hbefore : run.loop.tables.Engages wireId := hengages
      rcases books.belongs wireId hbefore with ⟨other, hother, hwire⟩ | hbelongs
      · rw [hawaited] at hother
        cases hother
        exact absurd hwire.symm hown
      · obtain ⟨held, hmapped, hpeer, since, hsince, hunread⟩ := hbelongs
        refine ⟨held, ?_, Finset.mem_insert_of_mem hpeer, since, ?_, hunread⟩
        · rw [ConnectTables.lookup_connected, if_neg hown]
          exact hmapped
        · rw [AList.lookup_insert_ne hown]
          exact hsince
  connected := by
    intro wireId held hmapped
    rw [ConnectTables.lookup_connected] at hmapped
    split_ifs at hmapped
    · cases hmapped
      exact Finset.mem_insert_self _ _
    · exact Finset.mem_insert_of_mem (books.connected wireId held hmapped)
  dialled := by simp

/-- An arm that has failed releases its wire. -/
theorem books_released (books : run.Books) {awaited : Awaited}
    (hawaited : run.loop.arm.awaited? = some awaited) {tables : ConnectTables}
    (hreleased : ¬tables.Engages awaited.wireId)
    (hothers : ∀ wireId, tables.Engages wireId → run.loop.tables.Engages wireId)
    (hmapped : tables.wireToApp = run.loop.tables.wireToApp)
    (hpeers : tables.connectedPeers = run.loop.tables.connectedPeers) :
    Books ⟨{ run.loop with tables, arm := .select }, run.read, run.entered⟩ where
  bound := books.bound
  belongs := by
    intro wireId hengages
    right
    rcases books.belongs wireId (hothers wireId hengages) with ⟨other, hother, hwire⟩ | hbelongs
    · rw [hawaited] at hother
      cases hother
      exact absurd (hwire ▸ hengages) hreleased
    · simpa [Belongs, StillHere, events, hmapped, hpeers] using hbelongs
  connected := by
    rw [hmapped, hpeers]
    exact books.connected
  dialled := by simp

theorem books_finish (books : run.Books) (result : Result String) :
    (run.after (.finish result)).Books := by
  cases harm : run.loop.arm with
  | select =>
      have hsame : run.after (.finish result) = run := by
        simp only [after, finish, ConnectLoop.finish, harm, Arm.awaited?]
      rw [hsame]
      exact books
  | dial awaited =>
      have hawaited : run.loop.arm.awaited? = some awaited := by
        rw [harm]
        rfl
      cases result with
      | ok app =>
          have hnext := books_connected books hawaited app
          simpa only [after, finish, ConnectLoop.finish, harm, Arm.awaited?,
            ConnectTables.dialDone] using hnext
      | error e =>
          obtain ⟨attempts, hdone⟩ := run.loop.tables.dialDone_error awaited.wireId e
          have hinbound := books.dialled awaited harm
          let tables : ConnectTables := { run.loop.tables with
            attempts, engaged := run.loop.tables.engaged.erase awaited.wireId }
          have hreleased : ¬tables.Engages awaited.wireId := by
            simp [tables, ConnectTables.Engages, hinbound]
          have hnext := books_released books hawaited hreleased
            (fun wireId hengages => hengages.imp_left Finset.mem_of_mem_erase) rfl rfl
          simpa only [after, finish, ConnectLoop.finish, harm, Arm.awaited?, hdone] using hnext
  | accept awaited =>
      have hawaited : run.loop.arm.awaited? = some awaited := by
        rw [harm]
        rfl
      cases result with
      | ok app =>
          have hnext := books_connected books hawaited app
          simpa only [after, finish, ConnectLoop.finish, harm, Arm.awaited?,
            ConnectTables.acceptDone] using hnext
      | error e =>
          have hreleased :
              ¬(run.loop.tables.acceptDone awaited.wireId (.error e)).Engages awaited.wireId := by
            simp [ConnectTables.Engages, ConnectTables.acceptDone]
          have hnext := books_released books hawaited hreleased
            (fun wireId hengages => hengages.imp Finset.mem_of_mem_erase Finset.mem_of_mem_erase)
            rfl rfl
          simpa only [after, finish, ConnectLoop.finish, harm, Arm.awaited?] using hnext

/-! ## Receiving -/

/-- What an event makes of the tables. -/
def told (tables : ConnectTables) : NodeEvent → ConnectTables
  | .peerConnected peerId => tables.peerConnected peerId
  | .peerDisconnected peerId => tables.peerDisconnected peerId
  | .messageReceived _ _ | .linkAdded _ _ _ | .linkRemoved _ _ _ | .linkSwitched _ _ _ _ => tables

/-- In the loop's select an event is handled by its tables alone. -/
theorem handleEvent_of_select {loop : ConnectLoop} (hselect : loop.arm = .select)
    (event : NodeEvent) :
    loop.handleEvent event = some { loop with tables := told loop.tables event } := by
  rcases loop with ⟨node, tables, peerRx, backlog, acceptedRx, arm⟩
  have harm : arm = .select := hselect
  subst harm
  cases event with
  | peerConnected _ | peerDisconnected _ | messageReceived _ _ | linkAdded _ _ _
  | linkRemoved _ _ _ | linkSwitched _ _ _ _ => rfl

theorem recv_of_event (hselect : run.loop.arm = .select) (hlags : ¬run.Lags) {event : NodeEvent}
    (hevent : run.events[run.read]? = some event) :
    run.recv = some { run with
      loop := { run.loop with tables := told run.loop.tables event }, read := run.read + 1 } := by
  rw [recv, if_neg hlags, hevent, Option.bind_eq_bind, Option.bind_some,
    handleEvent_of_select hselect event]
  rfl

/-- In an arm nothing is received. -/
theorem recv_of_arm (hawaits : run.loop.arm ≠ .select) : run.recv.getD run = run := by
  cases harm : run.loop.arm with
  | select => exact absurd harm hawaits
  | dial awaited | accept awaited =>
      by_cases hlags : run.Lags
      · simp [recv, hlags, ConnectLoop.handleLagged, harm]
      · rw [recv, if_neg hlags]
        cases run.events[run.read]? with
        | none => rfl
        | some event => simp [ConnectLoop.handleEvent, harm]

/-- An event that is no disconnect leaves every wire as it is, and takes no peer out. -/
theorem told_of_ne (tables : ConnectTables) {event : NodeEvent}
    (hother : ∀ peerId, event ≠ .peerDisconnected peerId) :
    (told tables event).engaged = tables.engaged ∧
      (told tables event).connectedInbound = tables.connectedInbound ∧
      (told tables event).wireToApp = tables.wireToApp ∧
      tables.connectedPeers ⊆ (told tables event).connectedPeers := by
  cases event with
  | peerConnected peerId => exact ⟨rfl, rfl, rfl, Finset.subset_insert peerId _⟩
  | peerDisconnected peerId => exact absurd rfl (hother peerId)
  | messageReceived _ _ | linkAdded _ _ _ | linkRemoved _ _ _ | linkSwitched _ _ _ _ =>
      exact ⟨rfl, rfl, rfl, subset_rfl⟩

/-- One more event is received, and it is not that the peer has gone. -/
theorem not_gone_succ {since : Nat} {app : String} {event : NodeEvent}
    (hunread : ∀ index, since ≤ index → index < run.read →
      run.events[index]? ≠ some (.peerDisconnected app))
    (hevent : run.events[run.read]? = some event) (hother : event ≠ .peerDisconnected app) :
    ∀ index, since ≤ index → index < run.read + 1 →
      run.events[index]? ≠ some (.peerDisconnected app) := by
  intro index hfrom hread
  rcases Nat.lt_succ_iff_lt_or_eq.mp hread with hearlier | rfl
  · exact hunread index hfrom hearlier
  · rw [hevent, Ne, Option.some.injEq]
    exact hother

/-- A disconnect frees the wires of its peer; the others have not lost theirs. -/
theorem books_disconnected (books : run.Books) (hselect : run.loop.arm = .select)
    {peerId : String} (hevent : run.events[run.read]? = some (.peerDisconnected peerId)) :
    Books { run with
      loop := { run.loop with tables := run.loop.tables.peerDisconnected peerId },
      read := run.read + 1 } where
  bound := (List.getElem?_eq_some_iff.mp hevent).1
  belongs := by
    intro wireId hengages
    right
    obtain ⟨hbefore, hkept⟩ := ConnectTables.engages_peerDisconnected_iff.mp hengages
    obtain ⟨app, hmapped, hpeer, since, hsince, hunread⟩ := books.accounted hselect wireId hbefore
    have hother : app ≠ peerId := by
      intro heq
      rw [heq] at hmapped
      exact hkept hmapped
    have hnotGone := not_gone_succ hunread hevent (by simp [Ne.symm hother])
    refine ⟨app, ?_, Finset.mem_erase.mpr ⟨hother, hpeer⟩, since, hsince, hnotGone⟩
    rw [ConnectTables.lookup_peerDisconnected, if_neg hkept]
    exact hmapped
  connected := by
    intro wireId app hmapped
    rw [ConnectTables.lookup_peerDisconnected] at hmapped
    split_ifs at hmapped with hgone
    refine Finset.mem_erase.mpr ⟨?_, books.connected wireId app hmapped⟩
    intro heq
    rw [heq] at hmapped
    exact hgone hmapped
  dialled := by
    intro awaited hdial
    rw [hselect] at hdial
    cases hdial

/-- Any other event leaves the wires with their peers. -/
theorem books_told (books : run.Books) (hselect : run.loop.arm = .select) {event : NodeEvent}
    (hevent : run.events[run.read]? = some event)
    (hother : ∀ peerId, event ≠ .peerDisconnected peerId) :
    Books { run with
      loop := { run.loop with tables := told run.loop.tables event },
      read := run.read + 1 } := by
  obtain ⟨hengaged, hinbound, hmap, hpeers⟩ := told_of_ne run.loop.tables hother
  refine ⟨(List.getElem?_eq_some_iff.mp hevent).1, ?_, ?_, ?_⟩
  · intro wireId hengages
    right
    have hbefore : run.loop.tables.Engages wireId := by
      rw [ConnectTables.Engages, hengaged, hinbound] at hengages
      exact hengages
    obtain ⟨app, hmapped, hpeer, since, hsince, hunread⟩ := books.accounted hselect wireId hbefore
    exact ⟨app, by rw [hmap]; exact hmapped, hpeers hpeer, since, hsince,
      not_gone_succ hunread hevent (hother app)⟩
  · intro wireId app hmapped
    rw [hmap] at hmapped
    exact hpeers (books.connected wireId app hmapped)
  · intro awaited hdial
    rw [hselect] at hdial
    cases hdial

/-- After a gap no wire is mapped; nothing is lost where none was engaged. -/
theorem recv_of_lags (hselect : run.loop.arm = .select) (hlags : run.Lags) :
    run.recv.getD run = { run with
      loop := { run.loop with
        tables := run.loop.tables.lagged run.loop.node.peerManager.keys },
      read := run.events.length - EVENT_CAPACITY } := by
  rw [recv, if_pos hlags]
  rcases hloop : run.loop with ⟨node, tables, peerRx, backlog, acceptedRx, arm⟩
  have harm : arm = .select := by
    rw [hloop] at hselect
    exact hselect
  subst harm
  rfl

theorem books_recv (books : run.Books) (gapFree : run.GapFree .recv) :
    (run.after .recv).Books := by
  rw [after]
  by_cases hselect : run.loop.arm = .select
  · by_cases hlags : run.Lags
    · rw [recv_of_lags hselect hlags]
      have hfree := gapFree hselect hlags
      refine ⟨Nat.sub_le _ _, fun wireId hengages => absurd hengages (hfree wireId), ?_, ?_⟩
      · intro wireId app hmapped
        cases hmapped
      · intro awaited hdial
        rw [hselect] at hdial
        cases hdial
    · cases hevent : run.events[run.read]? with
      | none =>
          rw [recv, if_neg hlags, hevent]
          exact books
      | some event =>
          rw [recv_of_event hselect hlags hevent, Option.getD_some]
          by_cases hgone : ∃ peerId, event = .peerDisconnected peerId
          · obtain ⟨peerId, rfl⟩ := hgone
            exact books_disconnected books hselect hevent
          · exact books_told books hselect hevent fun peerId heq => hgone ⟨peerId, heq⟩
  · rw [recv_of_arm hselect]
    exact books

/-- One step without a gap keeps the books. -/
theorem books_after (books : run.Books) {step : LoopStep} (gapFree : run.GapFree step) :
    (run.after step).Books := by
  cases step with
  | node next published => exact books_node books next published
  | queue peers conns => exact ⟨books.bound, books.belongs, books.connected, books.dialled⟩
  | takePeer now => exact books_takePeer books now
  | takeConn now => exact books_takeConn books now
  | finish result => exact books_finish books result
  | recv => exact books_recv books gapFree

/-- A gap while a wire is engaged leaves the wire to no one. -/
theorem gapFree_of_accounted {step : LoopStep} (accounted : (run.after step).Accounted) :
    run.GapFree step := by
  cases step with
  | recv =>
      intro hselect hlags wireId hengages
      rw [after, recv_of_lags hselect hlags] at accounted
      obtain ⟨app, hmapped, _⟩ := accounted hselect wireId hengages
      cases hmapped
  | node _ _ | queue _ _ | takePeer _ | takeConn _ | finish _ => trivial

/-- In a run of the connect loop, every wire engaged between arms belongs to a
connected peer that has not gone exactly when the loop meets no gap in the events
while a wire is engaged. -/
theorem accounted_iff_gapFree (node : Node) (steps : List LoopStep) :
    (∀ earlier later, steps = earlier ++ later →
        (earlier.foldl after (start node)).Accounted) ↔
      ∀ earlier step later, steps = earlier ++ step :: later →
        (earlier.foldl after (start node)).GapFree step := by
  have hkeeps : ∀ (run : EventLoop) (step : LoopStep), run.Books → run.GapFree step →
      (run.after step).Books := fun _ _ books gapFree => books_after books gapFree
  have hneeded : ∀ (run : EventLoop) (step : LoopStep), run.Books → (run.after step).Accounted →
      run.GapFree step := fun _ _ _ accounted => gapFree_of_accounted accounted
  exact forall_foldl_iff_of_invariant (fun _ books => books.accounted) hkeeps hneeded
    (books_start node) steps

/-- A wire that is engaged and mapped to no peer is not freed by anything that the loop
receives. -/
theorem engages_recv_of_unmapped {wireId : String} (hengages : run.loop.tables.Engages wireId)
    (hunmapped : run.loop.tables.wireToApp.lookup wireId = none) :
    (run.after .recv).loop.tables.Engages wireId ∧
      (run.after .recv).loop.tables.wireToApp.lookup wireId = none := by
  rw [after]
  by_cases hselect : run.loop.arm = .select
  · by_cases hlags : run.Lags
    · rw [recv_of_lags hselect hlags]
      exact ⟨hengages, rfl⟩
    · cases hevent : run.events[run.read]? with
      | none =>
          rw [recv, if_neg hlags, hevent]
          exact ⟨hengages, hunmapped⟩
      | some event =>
          rw [recv_of_event hselect hlags hevent, Option.getD_some]
          by_cases hgone : ∃ peerId, event = .peerDisconnected peerId
          · obtain ⟨peerId, rfl⟩ := hgone
            constructor
            · apply ConnectTables.engages_peerDisconnected_iff.mpr
              exact ⟨hengages, by simp [hunmapped]⟩
            · rw [told, ConnectTables.lookup_peerDisconnected, hunmapped]
              simp
          · obtain ⟨hengaged, hinbound, hmap, _⟩ :=
              told_of_ne run.loop.tables fun peerId heq => hgone ⟨peerId, heq⟩
            rw [ConnectTables.Engages, hengaged, hinbound, hmap]
            exact ⟨hengages, hunmapped⟩
  · rw [recv_of_arm hselect]
    exact ⟨hengages, hunmapped⟩

/-- A peer is dialled and goes again, and messages of another peer push its events out
of the channel before the loop receives them. -/
def missedDisconnect : List LoopStep :=
  [.queue [⟨"wire", "phone"⟩] [], .takePeer 0, .finish (.ok "app"),
    .node (.new "me" false []) ([.linkAdded "app" "link" .tcp, .peerConnected "app",
      .peerDisconnected "app"] ++ List.replicate 128 (.messageReceived "other" [])),
    .recv]

/-- The wire stays engaged, and belongs to no one. -/
theorem not_accounted_missedDisconnect :
    let run := missedDisconnect.foldl after (start (.new "me" false []))
    run.loop.tables.skips "wire" = true ∧ ¬run.Accounted := by
  have hstuck : let run := missedDisconnect.foldl after (start (.new "me" false []))
      run.loop.arm = .select ∧ run.loop.tables.Engages "wire" ∧
        run.loop.tables.wireToApp.lookup "wire" = none ∧
        run.loop.tables.skips "wire" = true := by
    decide +kernel
  obtain ⟨hselect, hengages, hunmapped, hskips⟩ := hstuck
  refine ⟨hskips, ?_⟩
  intro accounted
  obtain ⟨app, hmapped, _⟩ := accounted hselect "wire" hengages
  rw [hunmapped] at hmapped
  cases hmapped

end EventLoop

end Mlink.Daemon
