/-
# One client, its sockets and its connect promise

A client keeps the socket it uses, a timer for the next reconnect and the promise of
the `connect()` under way. A socket lives on after the client has let go of it, so the
machine below remembers every socket that was ever opened, with its handlers attached
or taken off.

Three moments decide whether the three fit together: a socket is opened over one that
is still attached, a socket is opened for a `connect()` that was called off while the
port was probed, and the socket that a `connect()` waits for is let go of before its
`ready`.
-/

import Mlink.Lib.Transition

namespace Mlink.Client

open Transition

/-- The states of a WebSocket. -/
inductive ReadyState | connecting | opened | closing | closed
  deriving DecidableEq, Repr

/-- A socket with the flag that its handlers share. -/
structure Socket where
  readyState : ReadyState
  attached : Bool
  settled : Bool
  deriving DecidableEq, Repr

/-- A socket whose handlers still run. -/
def Socket.live (socket : Socket) : Bool := socket.attached && socket.readyState != .closed

/-- A socket whose messages reach the client. -/
def Socket.heard (socket : Socket) : Bool := socket.attached && socket.readyState == .opened

theorem Socket.live_of_heard {socket : Socket} (hheard : socket.heard = true) :
    socket.live = true := by
  obtain ⟨hattached, hopened⟩ := Bool.and_eq_true_iff.mp hheard
  rw [live, hattached, eq_of_beq hopened]
  rfl

/-- How far the promise of `connect()` is; a settled one is still to be cleared. -/
inductive ConnectPromise
  | probing
  | waiting (socket : Nat)
  | settled
  deriving DecidableEq, Repr

/-- The promise is that of a socket, and not settled yet. -/
def ConnectPromise.isWaiting : ConnectPromise → Bool
  | .waiting _ => true
  | .probing | .settled => false

/-- Where a close handler lets listeners run: in `disconnected`, before the promise of
its socket is rejected, and in `reconnecting`, before the timer is set. -/
inductive Closing
  | none
  | disconnected (socket : Nat)
  | reconnecting
  deriving DecidableEq, Repr

/-- A client with every socket it has opened. The last two fields watch it: whether
`disconnect()` was called and `connect()` not since, and whether a socket was opened
while that was so. -/
structure MlinkClient where
  autoReconnect : Bool
  portKnown : Bool
  sockets : List Socket
  ws : Option Nat
  connectPromise : Option ConnectPromise
  reconnectTimer : Bool
  closedByUser : Bool
  closing : Closing
  stopped : Bool
  openedStopped : Bool
  deriving DecidableEq, Repr

/-- How an attempt to open a socket ends: no port is found, the constructor throws, or
there is a socket. -/
inductive Opening | noPort | thrown | opened
  deriving DecidableEq, Repr

/-- What the event loop runs: the continuations of the connect promise, the events of a
socket and the reconnect timer. -/
inductive Event
  | resolvePort (opening : Opening)
  | clear
  | onopen (socket : Nat)
  | onmessage (socket : Nat) (ready : Bool)
  | onerror (socket : Nat)
  | onclose (socket : Nat)
  | timer (opening : Opening)
  deriving DecidableEq, Repr

/-- One step of a run. A call may come from a listener, an event only between handlers. -/
inductive ClientStep
  | connect
  | disconnect
  | proceed
  | event (event : Event)
  deriving DecidableEq, Repr

namespace MlinkClient

/-- A client before its first call; the port is known where an option gives it. -/
def new (autoReconnect portKnown : Bool) : MlinkClient where
  autoReconnect := autoReconnect
  portKnown := portKnown
  sockets := []
  ws := none
  connectPromise := none
  reconnectTimer := false
  closedByUser := false
  closing := .none
  stopped := false
  openedStopped := false

variable (client : MlinkClient)

/-- Change one socket. -/
def onSocket (index : Nat) (change : Socket → Socket) : MlinkClient :=
  { client with sockets := client.sockets.modify index change }

/-- A socket comes to a state of its own. -/
def setReadyState (index : Nat) (readyState : ReadyState) : MlinkClient :=
  client.onSocket index fun socket => { socket with readyState := readyState }

/-- The handlers of one socket still run. -/
def liveAt (index : Nat) : Bool := client.sockets[index]?.any Socket.live

/-- The promise of a socket is not settled yet. -/
def unsettledAt (index : Nat) : Bool := client.sockets[index]?.any fun socket => !socket.settled

/-- Settle the promise of a socket; one that is settled stays as it is. -/
def settle (index : Nat) : MlinkClient :=
  { client.onSocket index fun socket => { socket with settled := true } with
    connectPromise :=
      if client.unsettledAt index = true ∧ client.connectPromise = some (.waiting index) then
        some .settled
      else client.connectPromise }

/-- `cleanupSocket`: take the handlers off the socket in use and forget it. -/
def cleanupSocket : MlinkClient :=
  match client.ws with
  | some index =>
      { client.onSocket index fun socket => { socket with attached := false } with ws := none }
  | none => client

/-- `openSocket`: the socket in use is the new one, whichever it was before. -/
def openSocket : MlinkClient :=
  { client with
    sockets := client.sockets ++ [⟨.connecting, true, false⟩]
    ws := some client.sockets.length
    openedStopped := client.openedStopped || client.stopped }

/-- `connect()`: the promise under way, or a new one. -/
def connect : MlinkClient :=
  if client.connectPromise.isSome then { client with stopped := false }
  else { client with closedByUser := false, connectPromise := some .probing, stopped := false }

/-- A client that the user has closed, with its timer cleared. -/
def stop : MlinkClient :=
  { client with closedByUser := true, reconnectTimer := false, stopped := true }

/-- `disconnect()`: no timer, and the socket in use closed and forgotten. -/
def disconnect : MlinkClient :=
  match client.ws with
  | some index => (client.stop.setReadyState index .closing).cleanupSocket
  | none => client.stop.cleanupSocket

/-- The continuation of `resolvePort()`: a port that is known is not probed for. -/
def resolvePort : Opening → MlinkClient
  | .noPort =>
      if client.portKnown then client else { client with connectPromise := some .settled }
  | .thrown => { client with portKnown := true, connectPromise := some .settled }
  | .opened =>
      { client.openSocket with
        portKnown := true, connectPromise := some (.waiting client.sockets.length) }

/-- The reconnect timer: nothing for a client that the user has closed. -/
def timer (opening : Opening) : MlinkClient :=
  if client.closedByUser = false ∧ opening = .opened then
    openSocket { client with reconnectTimer := false }
  else { client with reconnectTimer := false }

/-- The close handler up to its listeners. A socket without handlers just closes. -/
def onclose (index : Nat) : MlinkClient :=
  let closed := client.setReadyState index .closed
  if client.liveAt index then { closed.cleanupSocket with closing := .disconnected index }
  else closed

/-- The close handler after its listeners: reject the promise, and see to a reconnect. -/
def proceed : MlinkClient :=
  match client.closing with
  | .none => client
  | .disconnected index =>
      { client.settle index with
        closing :=
          if client.autoReconnect && !client.closedByUser && !client.reconnectTimer then
            .reconnecting
          else .none }
  | .reconnecting => { client with closing := .none, reconnectTimer := true }

/-- What the event loop runs; an event that is not due changes nothing. -/
def handle : Event → MlinkClient
  | .resolvePort opening =>
      if client.connectPromise = some .probing then client.resolvePort opening else client
  | .clear =>
      if client.connectPromise = some .settled then { client with connectPromise := none }
      else client
  | .onopen index =>
      if client.sockets[index]?.any fun socket => socket.readyState = .connecting then
        client.setReadyState index .opened
      else client
  | .onmessage index ready =>
      if client.sockets[index]?.any Socket.heard && ready then client.settle index else client
  | .onerror index => if client.liveAt index then client.settle index else client
  | .onclose index => client.onclose index
  | .timer opening => if client.reconnectTimer then client.timer opening else client

/-- The state after a step. -/
def after : ClientStep → MlinkClient
  | .connect => client.connect
  | .disconnect => client.disconnect
  | .proceed => client.proceed
  | .event event => if client.closing = .none then client.handle event else client

/-! ## The promise -/

/-- At most one live socket has its handlers attached. -/
def OneLive : Prop :=
  ∀ first < client.sockets.length, ∀ second < client.sockets.length,
    client.liveAt first = true → client.liveAt second = true → first = second

/-- At rest with a connect promise that nothing will settle. -/
def Stuck : Prop :=
  client.connectPromise.any ConnectPromise.isWaiting = true ∧
    client.ws = none ∧ client.reconnectTimer = false ∧ client.closing = .none

/-- At most one live socket is attached, none was opened after `disconnect()`, and the
client does not rest on a promise that nothing will settle. -/
def Sane : Prop := client.OneLive ∧ client.openedStopped = false ∧ ¬client.Stuck

instance : Decidable client.OneLive :=
  inferInstanceAs (Decidable (∀ first < client.sockets.length, _))

instance : Decidable client.Stuck := inferInstanceAs (Decidable (_ ∧ _))

instance : Decidable client.Sane := inferInstanceAs (Decidable (_ ∧ _))

/-- A socket is opened only where none is in use, for a `connect()` only where it was
not called off, and the socket that a `connect()` waits for is not let go of. -/
def Careful : ClientStep → Prop
  | .event (.resolvePort .opened) =>
      client.closing = .none → client.connectPromise = some .probing →
        client.ws = none ∧ client.stopped = false
  | .event (.timer .opened) =>
      client.closing = .none → client.reconnectTimer = true → client.closedByUser = false →
        client.ws = none
  | .disconnect => ∀ index ∈ client.ws, client.connectPromise ≠ some (.waiting index)
  | _ => True

/-- What careful steps keep: the live socket is the one in use, a promise waits for it or
for the close handler that runs, and a client that was stopped knows it. -/
structure Tidy : Prop where
  live_iff : ∀ index, client.liveAt index = true ↔ client.ws = some index
  awaited : ∀ index, client.connectPromise = some (.waiting index) →
    client.unsettledAt index = true ∧
      (client.ws = some index ∨ client.closing = .disconnected index)
  alone : client.closing ≠ .none → client.ws = none
  stopped : client.stopped = true → client.closedByUser = true
  openedStopped : client.openedStopped = false

variable {client : MlinkClient}

theorem tidy_new (autoReconnect portKnown : Bool) : (new autoReconnect portKnown).Tidy where
  live_iff index := by simp [new, liveAt]
  awaited index hwaiting := by cases hwaiting
  alone hclosing := absurd rfl hclosing
  stopped hstopped := by cases hstopped
  openedStopped := rfl

/-- With no socket in use, a promise waits only for the close handler that runs. -/
theorem Tidy.waiting_closing (tidy : client.Tidy) {index : Nat} (hws : client.ws = none)
    (hwaiting : client.connectPromise = some (.waiting index)) :
    client.closing = .disconnected index := by
  rcases (tidy.awaited index hwaiting).2 with hheld | hrunning
  · rw [hws] at hheld
    cases hheld
  · exact hrunning

/-- A tidy client keeps its promise. -/
theorem Tidy.sane (tidy : client.Tidy) : client.Sane := by
  have hlive : client.OneLive := by
    intro first _ second _ hfirst hsecond
    have hsame := (tidy.live_iff first).mp hfirst
    rw [(tidy.live_iff second).mp hsecond] at hsame
    exact (Option.some.inj hsame).symm
  have hmoving : ¬client.Stuck := by
    intro hstuck
    obtain ⟨hwaiting, hws, _, hclosing⟩ := hstuck
    obtain ⟨promise, hpromise, hstage⟩ := (Option.any_eq_true _ _).mp hwaiting
    cases promise with
    | probing => cases hstage
    | settled => cases hstage
    | waiting index =>
        have hrunning := tidy.waiting_closing hws hpromise
        rw [hclosing] at hrunning
        cases hrunning
  exact ⟨hlive, tidy.openedStopped, hmoving⟩

/-! ## One spec for each operation -/

variable (client) in
/-- What holds of a socket after one of them has changed. -/
theorem any_onSocket (index : Nat) (change : Socket → Socket) (p : Socket → Bool) (other : Nat) :
    (client.onSocket index change).sockets[other]?.any p =
      if index = other then client.sockets[other]?.any fun socket => p (change socket)
      else client.sockets[other]?.any p := by
  rw [onSocket, List.getElem?_modify]
  cases client.sockets[other]? with
  | none => simp
  | some socket =>
      split_ifs with hsame
      · rfl
      · rfl

theorem unsettledAt_setReadyState (index : Nat) (readyState : ReadyState) (other : Nat) :
    (client.setReadyState index readyState).unsettledAt other = client.unsettledAt other := by
  rw [unsettledAt, setReadyState, any_onSocket, ite_self, unsettledAt]

/-- A change of state that leaves a socket as live as it was. -/
theorem Tidy.setReadyState (tidy : client.Tidy) {index : Nat} {readyState : ReadyState}
    (hlive : client.sockets[index]?.any
        (fun socket => Socket.live { socket with readyState := readyState }) =
      client.liveAt index) : (client.setReadyState index readyState).Tidy where
  live_iff other := by
    rw [liveAt, MlinkClient.setReadyState, any_onSocket]
    split_ifs with hsame
    · subst hsame
      rw [hlive]
      exact tidy.live_iff index
    · exact tidy.live_iff other
  awaited other hwaiting := by
    rw [unsettledAt_setReadyState]
    exact tidy.awaited other hwaiting
  alone := tidy.alone
  stopped := tidy.stopped
  openedStopped := tidy.openedStopped

/-- A promise that still waits after a socket was settled waits for another one. -/
theorem Tidy.waiting_settle (tidy : client.Tidy) {index other : Nat}
    (hwaiting : (client.settle index).connectPromise = some (.waiting other)) :
    index ≠ other ∧ client.connectPromise = some (.waiting other) := by
  simp only [MlinkClient.settle] at hwaiting
  split_ifs at hwaiting with hmine
  · cases hwaiting
  · refine ⟨?_, hwaiting⟩
    intro hsame
    rw [hsame] at hmine
    exact hmine ⟨(tidy.awaited other hwaiting).1, hwaiting⟩

theorem Tidy.settle (tidy : client.Tidy) (index : Nat) : (client.settle index).Tidy where
  live_iff other := by
    have hlive := any_onSocket client index
      (fun socket => { socket with settled := true }) Socket.live other
    have hsame : (client.settle index).liveAt other = client.liveAt other :=
      hlive.trans (ite_self _)
    rw [hsame]
    exact tidy.live_iff other
  awaited other hwaiting := by
    obtain ⟨hother, hbefore⟩ := tidy.waiting_settle hwaiting
    have hany := any_onSocket client index
      (fun socket => { socket with settled := true }) (fun socket => !socket.settled) other
    rw [if_neg hother] at hany
    exact ⟨hany.trans (tidy.awaited other hbefore).1, (tidy.awaited other hbefore).2⟩
  alone := tidy.alone
  stopped := tidy.stopped
  openedStopped := tidy.openedStopped

theorem cleanupSocket_of_ws {index : Nat} (hws : client.ws = some index) :
    client.cleanupSocket =
      { client.onSocket index fun socket => { socket with attached := false } with
        ws := none } := by
  rw [cleanupSocket, hws]

theorem disconnect_of_ws {index : Nat} (hws : client.ws = some index) :
    client.disconnect = (client.stop.setReadyState index .closing).cleanupSocket := by
  rw [disconnect, hws]

/-- The socket in use is changed and let go of: no other was live. -/
theorem Tidy.liveAt_cleanupSocket (tidy : client.Tidy) {index : Nat} (hws : client.ws = some index)
    (readyState : ReadyState) (other : Nat) :
    (client.setReadyState index readyState).cleanupSocket.liveAt other = false := by
  have hheld : (client.setReadyState index readyState).ws = some index := hws
  have hdetached := any_onSocket (client.setReadyState index readyState) index
    (fun socket => { socket with attached := false }) Socket.live other
  rw [cleanupSocket_of_ws hheld]
  apply hdetached.trans
  split_ifs with hsame
  · simp [Socket.live]
  · rw [MlinkClient.setReadyState, any_onSocket, if_neg hsame]
    apply Bool.eq_false_iff.mpr
    intro hother
    have hheld := (tidy.live_iff other).mp hother
    rw [hws] at hheld
    exact hsame (Option.some.inj hheld)

/-- A promise may then only wait for the close handler that runs. -/
theorem Tidy.cleanupSocket (tidy : client.Tidy) {index : Nat} (hws : client.ws = some index)
    (readyState : ReadyState) (closing : Closing)
    (hawaited : ∀ other, client.connectPromise = some (.waiting other) →
      closing = .disconnected other) :
    Tidy { (client.setReadyState index readyState).cleanupSocket with closing := closing } := by
  have hdead := tidy.liveAt_cleanupSocket hws readyState
  have hheld : (client.setReadyState index readyState).ws = some index := hws
  rw [cleanupSocket_of_ws hheld] at hdead ⊢
  exact
    { live_iff := by
        intro other
        exact iff_of_false (Bool.eq_false_iff.mp (hdead other)) nofun
      awaited := by
        intro other hwaiting
        have hdetached := any_onSocket (client.setReadyState index readyState) index
          (fun socket => { socket with attached := false }) (fun socket => !socket.settled) other
        rw [ite_self] at hdetached
        have hsame := hdetached.trans (unsettledAt_setReadyState index readyState other)
        exact ⟨hsame.trans (tidy.awaited other hwaiting).1, .inr (hawaited other hwaiting)⟩
      alone := fun _ => rfl
      stopped := tidy.stopped
      openedStopped := tidy.openedStopped }

/-- A new socket is the only live one where none was in use. -/
theorem liveAt_openSocket (hlive : ∀ index, client.liveAt index = false) (index : Nat) :
    client.openSocket.liveAt index = true ↔ client.openSocket.ws = some index := by
  have hnew : client.openSocket.ws = some client.sockets.length := rfl
  rw [hnew, liveAt, openSocket, List.getElem?_append]
  split_ifs with hold
  · rw [← liveAt, hlive index]
    simp only [Option.some.injEq, Bool.false_eq_true, false_iff]
    omega
  · cases hpast : index - client.sockets.length with
    | zero =>
        have hsame : client.sockets.length = index := by omega
        simp [hsame, Socket.live]
    | succ past =>
        have hother : client.sockets.length ≠ index := by omega
        simp [hother]

theorem Tidy.not_live (tidy : client.Tidy) (hws : client.ws = none) (index : Nat) :
    client.liveAt index = false := by
  apply Bool.eq_false_iff.mpr
  intro hlive
  have hheld := (tidy.live_iff index).mp hlive
  rw [hws] at hheld
  cases hheld

theorem Tidy.connect (tidy : client.Tidy) : client.connect.Tidy := by
  rw [MlinkClient.connect]
  split_ifs
  · exact { tidy with stopped := nofun }
  · exact { tidy with awaited := nofun, stopped := nofun }

theorem Tidy.stop (tidy : client.Tidy) : client.stop.Tidy :=
  { tidy with stopped := fun _ => rfl }

/-- A promise waits for the socket in use, where there is one. -/
theorem Tidy.waiting_held (tidy : client.Tidy) {held index : Nat} (hws : client.ws = some held)
    (hwaiting : client.connectPromise = some (.waiting index)) : held = index := by
  rcases (tidy.awaited index hwaiting).2 with hheld | hrunning
  · rw [hws] at hheld
    exact Option.some.inj hheld
  · have hnone := tidy.alone (by rw [hrunning]; exact nofun)
    rw [hws] at hnone
    cases hnone

theorem Tidy.disconnect (tidy : client.Tidy) (careful : client.Careful .disconnect) :
    client.disconnect.Tidy := by
  cases hws : client.ws with
  | none =>
      have hstop : client.stop.ws = none := hws
      rw [MlinkClient.disconnect, hws]
      simp only [MlinkClient.cleanupSocket, hstop]
      exact tidy.stop
  | some held =>
      rw [disconnect_of_ws hws]
      apply tidy.stop.cleanupSocket hws .closing
        (client.stop.setReadyState held .closing).cleanupSocket.closing
      intro index hwaiting
      have hsame := tidy.waiting_held hws hwaiting
      exact absurd hwaiting (careful index (by rw [hws, hsame]; rfl))

theorem Tidy.onclose (tidy : client.Tidy) (index : Nat) : (client.onclose index).Tidy := by
  rw [MlinkClient.onclose]
  split_ifs with hlive
  · have hws := (tidy.live_iff index).mp hlive
    apply tidy.cleanupSocket hws .closed (.disconnected index)
    intro other hwaiting
    rw [tidy.waiting_held hws hwaiting]
  · apply tidy.setReadyState
    rw [Bool.eq_false_iff.mpr hlive]
    simp [Socket.live]

theorem Tidy.proceed (tidy : client.Tidy) : client.proceed.Tidy := by
  rw [MlinkClient.proceed]
  split
  · exact tidy
  · rename_i index hclosing
    have hws : client.ws = none := tidy.alone (by rw [hclosing]; exact nofun)
    have hsettled := tidy.settle index
    have hquiet : ∀ other, (client.settle index).connectPromise ≠ some (.waiting other) := by
      intro other hwaiting
      obtain ⟨hother, hbefore⟩ := tidy.waiting_settle hwaiting
      have hrunning := tidy.waiting_closing hws hbefore
      rw [hclosing] at hrunning
      exact hother (Closing.disconnected.inj hrunning)
    exact { hsettled with
      awaited := fun other hwaiting => absurd hwaiting (hquiet other)
      alone := fun _ => hws }
  · rename_i hclosing
    have hws : client.ws = none := tidy.alone (by rw [hclosing]; exact nofun)
    have hquiet : ∀ other, client.connectPromise ≠ some (.waiting other) := by
      intro other hwaiting
      have hrunning := tidy.waiting_closing hws hwaiting
      rw [hclosing] at hrunning
      cases hrunning
    exact { tidy with
      awaited := fun other hwaiting => absurd hwaiting (hquiet other)
      alone := fun _ => hws }

/-- A socket opened where none is in use, with no promise waiting for another. -/
theorem Tidy.openSocket (tidy : client.Tidy) (hws : client.ws = none)
    (hclosing : client.closing = .none) (hstopped : client.stopped = false) :
    client.openSocket.Tidy where
  live_iff := liveAt_openSocket (tidy.not_live hws)
  awaited index hwaiting := by
    have hrunning := tidy.waiting_closing hws hwaiting
    rw [hclosing] at hrunning
    cases hrunning
  alone hrunning := absurd hclosing hrunning
  stopped := tidy.stopped
  openedStopped := by
    have hopened : client.openSocket.openedStopped =
        (client.openedStopped || client.stopped) := rfl
    rw [hopened, tidy.openedStopped, hstopped]
    rfl

/-- Where a socket is opened over one in use, two are live. -/
theorem Tidy.ws_of_oneLive (tidy : client.Tidy) (one : client.openSocket.OneLive) :
    client.ws = none := by
  cases hws : client.ws with
  | none => rfl
  | some held =>
      have hlive := (tidy.live_iff held).mpr hws
      have hheld : held < client.sockets.length := by
        obtain ⟨socket, hsocket, _⟩ := (Option.any_eq_true _ _).mp hlive
        exact (List.getElem?_eq_some_iff.mp hsocket).1
      have hlength : client.openSocket.sockets.length = client.sockets.length + 1 := by
        simp [MlinkClient.openSocket]
      have hold : client.openSocket.liveAt held = true := by
        rw [liveAt, MlinkClient.openSocket, List.getElem?_append_left hheld]
        exact hlive
      have hnew : client.openSocket.liveAt client.sockets.length = true := by
        simp [liveAt, MlinkClient.openSocket, Socket.live]
      have hsame := one held (by omega) client.sockets.length (by omega) hold hnew
      omega

/-! ## Runs -/

theorem Tidy.resolvePort (tidy : client.Tidy) {opening : Opening}
    (hclosing : client.closing = .none) (hprobing : client.connectPromise = some .probing)
    (careful : client.Careful (.event (.resolvePort opening))) :
    (client.resolvePort opening).Tidy := by
  cases opening with
  | noPort =>
      rw [MlinkClient.resolvePort]
      split_ifs
      · exact tidy
      · exact { tidy with awaited := nofun }
  | thrown => exact { tidy with awaited := nofun }
  | opened =>
      obtain ⟨hws, hstopped⟩ := careful hclosing hprobing
      have hopened := tidy.openSocket hws hclosing hstopped
      have hunsettled : client.openSocket.unsettledAt client.sockets.length = true := by
        simp [unsettledAt, MlinkClient.openSocket]
      exact { hopened with
        awaited := by
          intro index hwaiting
          cases hwaiting
          exact ⟨hunsettled, .inl rfl⟩ }

theorem Tidy.timer (tidy : client.Tidy) {opening : Opening} (hclosing : client.closing = .none)
    (htimer : client.reconnectTimer = true)
    (careful : client.Careful (.event (.timer opening))) : (client.timer opening).Tidy := by
  have hfired : Tidy { client with reconnectTimer := false } := { tidy with }
  rw [MlinkClient.timer]
  split_ifs with hopening
  · obtain ⟨hopen, rfl⟩ := hopening
    have hstopped : client.stopped = false := by
      apply Bool.eq_false_iff.mpr
      intro hstopped
      rw [tidy.stopped hstopped] at hopen
      cases hopen
    exact hfired.openSocket (careful hclosing htimer hopen) hclosing hstopped
  · exact hfired

/-- Every careful step keeps a client tidy. -/
theorem Tidy.after (tidy : client.Tidy) {step : ClientStep} (careful : client.Careful step) :
    (client.after step).Tidy := by
  cases step with
  | connect => exact tidy.connect
  | disconnect => exact tidy.disconnect careful
  | proceed => exact tidy.proceed
  | event event =>
      rw [MlinkClient.after]
      split_ifs with hclosing
      · cases event with
        | resolvePort opening =>
            rw [handle]
            split_ifs with hprobing
            · exact tidy.resolvePort hclosing hprobing careful
            · exact tidy
        | clear =>
            rw [handle]
            split_ifs
            · exact { tidy with awaited := nofun }
            · exact tidy
        | onopen index =>
            rw [handle]
            split_ifs with hconnecting
            · apply tidy.setReadyState
              obtain ⟨socket, hsocket, hstate⟩ := (Option.any_eq_true _ _).mp hconnecting
              have hconnecting : socket.readyState = .connecting := by simpa using hstate
              rw [liveAt, hsocket, Option.any_some, Option.any_some, Socket.live, Socket.live,
                hconnecting]
              rfl
            · exact tidy
        | onmessage index ready =>
            rw [handle]
            split_ifs
            · exact tidy.settle index
            · exact tidy
        | onerror index =>
            rw [handle]
            split_ifs
            · exact tidy.settle index
            · exact tidy
        | onclose index => exact tidy.onclose index
        | timer opening =>
            rw [handle]
            split_ifs with htimer
            · exact tidy.timer hclosing htimer careful
            · exact tidy
      · exact tidy

/-- No handler is left that would settle the promise. -/
def Deserted (client : MlinkClient) : Prop :=
  client.Stuck ∧ ∀ index, client.liveAt index = false

/-- The socket that a promise waits for is let go of, and with it the last handler. -/
theorem Tidy.deserted_disconnect (tidy : client.Tidy) {index : Nat}
    (hws : client.ws = some index) (hwaiting : client.connectPromise = some (.waiting index)) :
    client.disconnect.Deserted := by
  have hclosing : client.closing = .none := by
    by_contra hrunning
    rw [tidy.alone hrunning] at hws
    cases hws
  have hheld : (client.stop.setReadyState index .closing).ws = some index := hws
  have hpromise : (client.stop.setReadyState index .closing).connectPromise =
      some (.waiting index) := hwaiting
  rw [disconnect_of_ws hws]
  refine ⟨?_, tidy.stop.liveAt_cleanupSocket hws .closing⟩
  rw [cleanupSocket_of_ws hheld]
  refine ⟨?_, rfl, rfl, hclosing⟩
  simp [onSocket, hpromise, ConnectPromise.isWaiting]

/-- A tidy client that keeps its promise has taken a careful step. -/
theorem Tidy.careful (tidy : client.Tidy) {step : ClientStep} (sane : (client.after step).Sane) :
    client.Careful step := by
  obtain ⟨hone, hopened, hmoving⟩ := sane
  cases step with
  | connect => trivial
  | proceed => trivial
  | disconnect =>
      intro index hindex hwaiting
      exact hmoving (tidy.deserted_disconnect hindex hwaiting).1
  | event event =>
      cases event with
      | resolvePort opening =>
          cases opening with
          | noPort => trivial
          | thrown => trivial
          | opened =>
              intro hclosing hprobing
              rw [MlinkClient.after, if_pos hclosing, handle, if_pos hprobing] at hone hopened
              refine ⟨tidy.ws_of_oneLive hone, ?_⟩
              exact (Bool.or_eq_false_iff.mp hopened).2
      | timer opening =>
          cases opening with
          | noPort => trivial
          | thrown => trivial
          | opened =>
              intro hclosing htimer hopen
              have hfired : Tidy { client with reconnectTimer := false } := { tidy with }
              rw [MlinkClient.after, if_pos hclosing, handle, if_pos htimer, MlinkClient.timer,
                if_pos ⟨hopen, rfl⟩] at hone
              exact hfired.ws_of_oneLive hone
      | clear => trivial
      | onopen index => trivial
      | onmessage index ready => trivial
      | onerror index => trivial
      | onclose index => trivial

/-- Whatever the order of calls, events and timers, a client has at most one live socket,
opens none after `disconnect()` and never rests on a promise that nothing will settle
throughout a run exactly when all its steps are careful. -/
theorem sane_iff_careful (autoReconnect portKnown : Bool) (steps : List ClientStep) :
    (∀ earlier later, steps = earlier ++ later →
        (earlier.foldl after (new autoReconnect portKnown)).Sane) ↔
      ∀ earlier step later, steps = earlier ++ step :: later →
        (earlier.foldl after (new autoReconnect portKnown)).Careful step := by
  have hsane : ∀ client : MlinkClient, client.Tidy → client.Sane := fun _ tidy => tidy.sane
  have hkeeps : ∀ (client : MlinkClient) (step : ClientStep), client.Tidy →
      client.Careful step → (client.after step).Tidy := fun _ _ tidy careful => tidy.after careful
  have hneeded : ∀ (client : MlinkClient) (step : ClientStep), client.Tidy →
      (client.after step).Sane → client.Careful step := fun _ _ tidy sane => tidy.careful sane
  exact forall_foldl_iff_of_invariant hsane hkeeps hneeded (tidy_new autoReconnect portKnown) steps

/-! ## A client that is stuck -/

/-- A socket without handlers has none in any other state either. -/
theorem Deserted.setReadyState (deserted : client.Deserted) {index : Nat} {readyState : ReadyState}
    (hlive : client.sockets[index]?.any
        (fun socket => Socket.live { socket with readyState := readyState }) = false) :
    (client.setReadyState index readyState).Deserted := by
  refine ⟨deserted.1, ?_⟩
  intro other
  rw [liveAt, MlinkClient.setReadyState, any_onSocket]
  split_ifs with hsame
  · rw [← hsame]
    exact hlive
  · exact deserted.2 other

/-- No call and no event gets a client out of it. -/
theorem Deserted.after (deserted : client.Deserted) (step : ClientStep) :
    (client.after step).Deserted := by
  obtain ⟨hwaiting, hws, htimer, hclosing⟩ := deserted.1
  obtain ⟨promise, hpromise, hstage⟩ := (Option.any_eq_true _ _).mp hwaiting
  cases step with
  | connect =>
      rw [MlinkClient.after, MlinkClient.connect, if_pos (by rw [hpromise]; rfl)]
      exact deserted
  | disconnect =>
      have hstop : client.stop.ws = none := hws
      rw [MlinkClient.after, MlinkClient.disconnect, hws]
      simp only [MlinkClient.cleanupSocket, hstop]
      exact ⟨⟨hwaiting, hws, rfl, hclosing⟩, deserted.2⟩
  | proceed =>
      rw [MlinkClient.after, MlinkClient.proceed, hclosing]
      exact deserted
  | event event =>
      rw [MlinkClient.after, if_pos hclosing]
      cases event with
      | resolvePort opening =>
          rw [handle, if_neg]
          · exact deserted
          · rw [hpromise]
            intro hprobing
            cases hprobing
            cases hstage
      | clear =>
          rw [handle, if_neg]
          · exact deserted
          · rw [hpromise]
            intro hsettled
            cases hsettled
            cases hstage
      | onopen index =>
          rw [handle]
          split_ifs with hconnecting
          · apply deserted.setReadyState
            obtain ⟨socket, hsocket, hstate⟩ := (Option.any_eq_true _ _).mp hconnecting
            have hunattached := deserted.2 index
            have hconnecting : socket.readyState = .connecting := by simpa using hstate
            rw [liveAt, hsocket, Option.any_some, Socket.live, hconnecting] at hunattached
            rw [hsocket, Option.any_some, Socket.live]
            exact hunattached
          · exact deserted
      | onmessage index ready =>
          rw [handle, if_neg]
          · exact deserted
          · intro hmessage
            obtain ⟨socket, hsocket, hheard⟩ :=
              (Option.any_eq_true _ _).mp (Bool.and_eq_true_iff.mp hmessage).1
            have hdeaf := deserted.2 index
            rw [liveAt, hsocket, Option.any_some, Socket.live_of_heard hheard] at hdeaf
            cases hdeaf
      | onerror index =>
          rw [handle, if_neg (by rw [deserted.2 index]; exact nofun)]
          exact deserted
      | onclose index =>
          rw [handle, MlinkClient.onclose, if_neg (by rw [deserted.2 index]; exact nofun)]
          apply deserted.setReadyState
          simp [Socket.live]
      | timer opening =>
          rw [handle, if_neg (by rw [htimer]; exact nofun)]
          exact deserted

/-- Once deserted, a client stays stuck in every run, whatever the user calls. -/
theorem Deserted.foldl (deserted : client.Deserted) (steps : List ClientStep) :
    (steps.foldl MlinkClient.after client).Stuck := by
  have hkeeps : ∀ (client : MlinkClient) (step : ClientStep), client.Deserted → True →
      (client.after step).Deserted := fun _ step deserted _ => deserted.after step
  exact (foldl_of_guarded hkeeps deserted fun _ _ _ _ => trivial).1

/-- A `disconnect()` while a `connect()` waits for its socket is the last that is heard of
both. -/
theorem Tidy.stuck_of_disconnect (tidy : client.Tidy) {index : Nat}
    (hws : client.ws = some index) (hwaiting : client.connectPromise = some (.waiting index))
    (steps : List ClientStep) : (steps.foldl MlinkClient.after client.disconnect).Stuck :=
  (tidy.deserted_disconnect hws hwaiting).foldl steps

/-- The user calls `disconnect()` in `connected`, before the daemon's `ready`. -/
def calledOffBeforeReady : List ClientStep :=
  [.connect, .event (.resolvePort .opened), .event (.onopen 0), .disconnect]

/-- The user calls `disconnect()` while the port is probed. -/
def calledOffWhileProbing : List ClientStep :=
  [.connect, .disconnect, .event (.resolvePort .opened)]

/-- The user calls `connect()` while a reconnect is pending, which then comes as well. -/
def connectedTwice : List ClientStep :=
  [.connect, .event (.resolvePort .opened), .event (.onopen 0), .event (.onmessage 0 true),
    .event .clear, .event (.onclose 0), .proceed, .proceed, .connect,
    .event (.resolvePort .opened), .event (.timer .opened)]

/-- Each of the three parts fails in a run of its own: the first rests on a promise that
nothing settles and that every later `connect()` returns, the second opens a socket after
`disconnect()`, and the third has two live sockets. -/
theorem not_sane_of_careless :
    let calledOff := calledOffBeforeReady.foldl after (new true true)
    ¬calledOff.Sane ∧ calledOff.Stuck ∧ (calledOff.after .connect).Stuck ∧
      (calledOffWhileProbing.foldl after (new true false)).openedStopped = true ∧
      ¬(connectedTwice.foldl after (new true true)).OneLive := by
  decide +kernel

end MlinkClient

end Mlink.Client
