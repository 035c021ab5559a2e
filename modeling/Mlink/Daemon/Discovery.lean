/-
# Finding a peer again

The scanner of a transport hands each wire on once. A wire whose dial has failed comes up
again only because the connect loop has the scanner forget it: a task of its own sleeps, and
then asks for that. A wire of a peer that has gone is asked for at once, but only if there
is room for the asking. Between the scanner and the loop are two bounded channels, and each
of the two may be anywhere while the other moves. Still no wire is left aside for good unless
it is connected, given up, or named by a gap in the events or by a channel that was full.
-/

import Mlink.Core.Scanner
import Mlink.Daemon.Bookkeeping

namespace Mlink.Daemon

open Mlink.Core Mlink.Protocol Transition

/-- How many requests to forget a wire the scanner's channel holds. -/
def UNSEE_CAPACITY : Nat := 16

/-! ## The connect loop -/

/-- Where the connect loop is: in its select, in a dial or an accept, telling the scanner of
the wires of a peer that has gone, or at its end. -/
inductive DialArm
  | select
  | dial (wireId : String)
  | accept (wireId : String)
  | tell (wires : Finset String)
  | returned
  deriving DecidableEq

namespace DialArm

/-- The wire of the dial or the accept. -/
def wire? : DialArm → Option String
  | dial wireId | accept wireId => some wireId
  | select | tell _ | returned => none

/-- The wires that the scanner is still to be told of. -/
def wires : DialArm → Finset String
  | tell wires => wires
  | select | dial _ | accept _ | returned => ∅

theorem wires_of_wire? {arm : DialArm} {wireId : String} (hwire : arm.wire? = some wireId) :
    arm.wires = ∅ := by
  cases arm with
  | tell wires => cases hwire
  | select | dial _ | accept _ | returned => rfl

end DialArm

/-- The connect loop, with what has happened to each wire since it was last connected: how
often it has been dialled, and whether it has been lost sight of. -/
structure Dialler where
  tables : ConnectTables
  arm : DialArm
  dials : String → Nat
  lost : Finset String

namespace ConnectTables

variable (tables : ConnectTables)

/-- The wires that led to a peer. -/
def deadWires (peerId : String) : Finset String :=
  ((tables.wireToApp.entries.filter fun entry => entry.2 = peerId).map Sigma.fst).toFinset

/-- The wires that lead to any peer. -/
def mapped : Finset String := tables.wireToApp.keys.toFinset

end ConnectTables

namespace Dialler

def new : Dialler := ⟨.new, .select, fun _ => 0, ∅⟩

variable (dialler : Dialler) (wireId : String)

def dialBegun (tables : ConnectTables) : Dialler where
  tables := tables
  arm := .dial wireId
  dials := Function.update dialler.dials wireId (dialler.dials wireId + 1)
  lost := dialler.lost.erase wireId

def acceptBegun : Dialler :=
  { dialler with tables := dialler.tables.beginAccept wireId, arm := .accept wireId }

/-- Leave a dial or an accept. -/
def done (tables : ConnectTables) : Result String → Dialler
  | .ok _ =>
      { tables
        arm := .select
        dials := Function.update dialler.dials wireId 0
        lost := dialler.lost.erase wireId }
  | .error _ => { dialler with tables, arm := .select }

/-- Handle an event. The wires of a peer that has gone are to be found again. -/
def handle : NodeEvent → Dialler
  | .peerConnected peerId => { dialler with tables := dialler.tables.peerConnected peerId }
  | .peerDisconnected peerId =>
      { dialler with
        tables := dialler.tables.peerDisconnected peerId
        arm := .tell (dialler.tables.deadWires peerId)
        dials := fun wireId =>
          if wireId ∈ dialler.tables.deadWires peerId then 0 else dialler.dials wireId }
  | .messageReceived _ _ | .linkAdded _ _ _ | .linkRemoved _ _ _ | .linkSwitched _ _ _ _ =>
      dialler

/-- After a gap in the events no wire is known to lead anywhere. -/
def lagged (peers : List String) : Dialler :=
  { dialler with
    tables := dialler.tables.lagged peers
    lost := dialler.lost ∪ dialler.tables.mapped }

/-- The scanner has been told of a wire, or it could not be. -/
def told (wires : Finset String) (heard : Bool) : Dialler :=
  { dialler with
    arm := .tell (wires.erase wireId)
    lost := if heard then dialler.lost else insert wireId dialler.lost }

end Dialler

/-! ## Scanner and loop -/

/-- Where the scanner's loop is in its round. -/
inductive ScanPhase
  | draining
  | waiting
  | sending (fresh : List Transport.DiscoveredPeer)
  | stopped
  deriving DecidableEq

/-- What the round has found and not yet sent. -/
def ScanPhase.fresh : ScanPhase → List Transport.DiscoveredPeer
  | sending fresh => fresh
  | draining | waiting | stopped => []

/-- A scanner and a connect loop, what is queued between them, and the tasks that sleep
before they ask for a wire. -/
structure Discovery where
  scanner : Scanner
  phase : ScanPhase
  peerRx : List Transport.DiscoveredPeer
  unseeRx : List String
  sleeping : List String
  dialler : Dialler

/-- One step of one of them. The transport, the listener, the dialled peers and the node do
as they like. -/
inductive DiscoveryMove
  | drain
  | round (answer : Result (List Transport.DiscoveredPeer))
  | send
  | wake (wireId : String)
  | takePeer
  | takeConn (wireId : String)
  | finish (result : Result String)
  | event (event : NodeEvent)
  | lagged (peers : List String)
  | tell (wireId : String)
  | told
  | close

/-- A dial that failed is tried again, unless the peer is in another room. -/
def retries : Result String → Bool
  | .ok _ | .error (.roomMismatch _) => false
  | .error _ => true

namespace Discovery

def new (appUuid : String) : Discovery := ⟨.new appUuid, .draining, [], [], [], .new⟩

variable (discovery : Discovery)

/-- Both loops are still there. -/
def Runs : Prop := discovery.phase ≠ .stopped ∧ discovery.dialler.arm ≠ .returned

/-- Forget one wire, or go on to wait for the next round. -/
def drain : Option Discovery :=
  match discovery.phase, discovery.unseeRx with
  | .draining, id :: rest =>
      some { discovery with scanner := discovery.scanner.unsee id, unseeRx := rest }
  | .draining, [] => some { discovery with phase := .waiting }
  | _, _ => none

/-- Ask the transport. An error ends the scanner, and so does a loop that has returned. -/
def round (answer : Result (List Transport.DiscoveredPeer)) : Option Discovery :=
  match discovery.phase with
  | .waiting =>
      if discovery.dialler.arm = .returned then some { discovery with phase := .stopped }
      else
        let scanner := (discovery.scanner.discoverOnce answer).2
        match (discovery.scanner.discoverOnce answer).1 with
        | .error _ => some { discovery with scanner, phase := .stopped }
        | .ok fresh => some { discovery with scanner, phase := .sending fresh }
  | _ => none

/-- Hand on what was found, one peer at a time, as there is room. -/
def send : Option Discovery :=
  match discovery.phase with
  | .sending (peer :: rest) =>
      if discovery.dialler.arm = .returned then some { discovery with phase := .stopped }
      else if discovery.peerRx.length < PEER_CAPACITY then
        some { discovery with peerRx := discovery.peerRx ++ [peer], phase := .sending rest }
      else none
  | .sending [] => some { discovery with phase := .draining }
  | _ => none

/-- A task has slept, and waits for room in the scanner's channel. -/
def wake (wireId : String) : Option Discovery :=
  if wireId ∈ discovery.sleeping then
    if discovery.phase = .stopped then
      some { discovery with sleeping := discovery.sleeping.erase wireId }
    else if discovery.unseeRx.length < UNSEE_CAPACITY then
      some { discovery with
        sleeping := discovery.sleeping.erase wireId
        unseeRx := discovery.unseeRx ++ [wireId] }
    else none
  else none

/-- Dial the next peer unless the tables say otherwise; without a scanner, return after the
last one. -/
def takePeer : Option Discovery :=
  match discovery.dialler.arm, discovery.peerRx with
  | .select, peer :: rest =>
      match discovery.dialler.tables.beginDial peer.id with
      | none => some { discovery with peerRx := rest }
      | some tables =>
          some { discovery with
            peerRx := rest
            dialler := discovery.dialler.dialBegun peer.id tables }
  | .select, [] =>
      if discovery.phase = .stopped then
        some { discovery with dialler := { discovery.dialler with arm := .returned } }
      else none
  | _, _ => none

def takeConn (wireId : String) : Option Discovery :=
  match discovery.dialler.arm with
  | .select => some { discovery with dialler := discovery.dialler.acceptBegun wireId }
  | _ => none

/-- A dial or an accept has ended. A dial that is to be tried again leaves a task behind. -/
def finish (result : Result String) : Option Discovery :=
  let dialler := discovery.dialler
  match dialler.arm with
  | .dial wireId =>
      some { discovery with
        dialler := dialler.done wireId (dialler.tables.dialDone wireId result) result
        sleeping := discovery.sleeping ++ if retries result then [wireId] else [] }
  | .accept wireId =>
      some { discovery with
        dialler := dialler.done wireId (dialler.tables.acceptDone wireId result) result }
  | _ => none

def event (event : NodeEvent) : Option Discovery :=
  match discovery.dialler.arm with
  | .select => some { discovery with dialler := discovery.dialler.handle event }
  | _ => none

def lagged (peers : List String) : Option Discovery :=
  match discovery.dialler.arm with
  | .select => some { discovery with dialler := discovery.dialler.lagged peers }
  | _ => none

/-- Try to tell the scanner of one of the wires. There is no waiting for room here. -/
def tell (wireId : String) : Option Discovery :=
  match discovery.dialler.arm with
  | .tell wires =>
      if wireId ∈ wires then
        if discovery.phase ≠ .stopped ∧ discovery.unseeRx.length < UNSEE_CAPACITY then
          some { discovery with
            dialler := discovery.dialler.told wireId wires true
            unseeRx := discovery.unseeRx ++ [wireId] }
        else some { discovery with dialler := discovery.dialler.told wireId wires false }
      else none
  | _ => none

/-- All of them have been seen to. -/
def told : Option Discovery :=
  if discovery.dialler.arm = .tell ∅ then
    some { discovery with dialler := { discovery.dialler with arm := .select } }
  else none

/-- The listener is gone, or the node is. -/
def close : Option Discovery :=
  match discovery.dialler.arm with
  | .select => some { discovery with dialler := { discovery.dialler with arm := .returned } }
  | _ => none

def next (discovery : Discovery) : DiscoveryMove → Option Discovery
  | .drain => discovery.drain
  | .round answer => discovery.round answer
  | .send => discovery.send
  | .wake wireId => discovery.wake wireId
  | .takePeer => discovery.takePeer
  | .takeConn wireId => discovery.takeConn wireId
  | .finish result => discovery.finish result
  | .event event => discovery.event event
  | .lagged peers => discovery.lagged peers
  | .tell wireId => discovery.tell wireId
  | .told => discovery.told
  | .close => discovery.close

/-- Every order of the steps of the two loops and their tasks. -/
def system (appUuid : String) : System Discovery DiscoveryMove where
  init discovery := discovery = new appUuid
  step source move target := source.next move = some target

/-- The wires that are on their way between the two. -/
def queued : List String :=
  discovery.phase.fresh.map (·.id) ++ discovery.peerRx.map (·.id) ++ discovery.sleeping ++
    discovery.unseeRx

/-- Nothing is on its way, and both are idle. -/
def AtRest : Prop :=
  discovery.phase = .waiting ∧ discovery.dialler.arm = .select ∧ discovery.queued = []

end Discovery

/-! ## What the books say of a wire -/

namespace Dialler

variable (dialler : Dialler) (wireId : String)

/-- The wire leads to a peer that is connected, as far as the loop knows. -/
def Connected : Prop :=
  ∃ app ∈ dialler.tables.connectedPeers, dialler.tables.wireToApp.lookup wireId = some app

/-- All attempts are used up. -/
def GaveUp : Prop := dialler.tables.attempts.lookup wireId = some MAX_RETRIES

/-- There is a reason why the scanner need not hand the wire on again. -/
def Accounts : Prop :=
  dialler.arm = .dial wireId ∨ wireId ∈ dialler.arm.wires ∨ dialler.Connected wireId ∨
    dialler.GaveUp wireId ∨ wireId ∈ dialler.lost

/-- A wire that is being tried leads nowhere yet, and only its own dial or accept holds
it. -/
structure Trying : Prop where
  unmapped : dialler.tables.wireToApp.lookup wireId = none
  kept : wireId ∉ dialler.lost
  silent : wireId ∉ dialler.arm.wires
  free : dialler.tables.Engages wireId → dialler.arm.wire? = some wireId

/-- The invariant of the loop's tables. -/
structure Books : Prop where
  counted : ∀ wireId,
    dialler.dials wireId ≤ ((dialler.tables.attempts.lookup wireId).getD 0).toNat
  few : ∀ wireId, ∀ attempt ∈ dialler.tables.attempts.lookup wireId, attempt ≤ MAX_RETRIES
  trying : ∀ wireId, (dialler.tables.attempts.lookup wireId).isSome → dialler.Trying wireId
  dialled : ∀ wireId, dialler.arm = .dial wireId →
    (dialler.tables.attempts.lookup wireId).isSome ∧ wireId ∉ dialler.tables.connectedInbound
  connected : ∀ wireId app, dialler.tables.wireToApp.lookup wireId = some app →
    app ∈ dialler.tables.connectedPeers
  held : ∀ wireId, dialler.tables.Engages wireId →
    dialler.arm.wire? = some wireId ∨ dialler.Connected wireId ∨ wireId ∈ dialler.lost

end Dialler

namespace ConnectTables

variable {tables : ConnectTables} {wireId : String}

theorem skips_iff : tables.skips wireId = true ↔ tables.Engages wireId ∨
    ∃ app ∈ tables.connectedPeers, tables.wireToApp.lookup wireId = some app := by
  rw [skips, Bool.or_eq_true, Bool.or_eq_true, decide_eq_true_eq, decide_eq_true_eq,
    Option.any_eq_true, Engages, or_comm (a := wireId ∈ tables.engaged)]
  simp only [decide_eq_true_eq, and_comm]

/-- A dial that begins counts as one more attempt on a wire that nothing holds. -/
theorem beginDial_cases {after : ConnectTables} (begun : tables.beginDial wireId = some after) :
    tables.skips wireId = false ∧ (tables.attempts.lookup wireId).getD 0 < MAX_RETRIES ∧
      after = { tables with
        attempts :=
          tables.attempts.insert wireId ((tables.attempts.lookup wireId).getD 0 + 1)
        engaged := insert wireId tables.engaged } := by
  rw [beginDial] at begun
  split_ifs at begun with hskips
  dsimp only at begun
  split_ifs at begun with hmax
  cases begun
  exact ⟨Bool.eq_false_iff.mpr hskips, UInt8.not_le.mp hmax, rfl⟩

/-- A dial that does not begin is for a wire that is held, or given up. -/
theorem beginDial_eq_none (refused : tables.beginDial wireId = none) :
    tables.skips wireId = true ∨ MAX_RETRIES ≤ (tables.attempts.lookup wireId).getD 0 := by
  rw [beginDial] at refused
  split_ifs at refused with hskips
  · exact .inl hskips
  · dsimp only at refused
    split_ifs at refused with hmax
    exact .inr hmax

/-- What a dial leaves of the attempts. -/
theorem lookup_attempts_dialDone (result : Result String) (other : String) :
    (tables.dialDone wireId result).attempts.lookup other =
      if other = wireId then
        match result with
        | .ok _ => none
        | .error (.roomMismatch _) => some MAX_RETRIES
        | .error _ => tables.attempts.lookup wireId
      else tables.attempts.lookup other := by
  by_cases hother : other = wireId
  · rw [if_pos hother, hother]
    cases result with
    | ok app => exact AList.lookup_erase _ _
    | error e =>
        cases e with
        | roomMismatch _ => exact AList.lookup_insert _
        | _ => rfl
  · rw [if_neg hother]
    cases result with
    | ok app => exact AList.lookup_erase_ne hother
    | error e =>
        cases e with
        | roomMismatch _ => exact AList.lookup_insert_ne hother
        | _ => rfl

theorem mem_deadWires {peerId : String} :
    wireId ∈ tables.deadWires peerId ↔ tables.wireToApp.lookup wireId = some peerId := by
  rw [deadWires, List.mem_toFinset, mem_deadWires_iff]

/-- The attempts on the wires of a peer that has gone are forgotten. -/
theorem lookup_attempts_peerDisconnected {peerId : String} :
    (tables.peerDisconnected peerId).attempts.lookup wireId =
      if wireId ∈ tables.deadWires peerId then none else tables.attempts.lookup wireId := by
  rw [peerDisconnected, Lookup.lookup_foldl_erase]
  simp only [mem_deadWires, mem_deadWires_iff]

theorem mem_mapped : wireId ∈ tables.mapped ↔ (tables.wireToApp.lookup wireId).isSome := by
  rw [mapped, List.mem_toFinset, AList.lookup_isSome, AList.mem_keys]

end ConnectTables

/-! ## The loop keeps its books -/

namespace Dialler

variable {dialler : Dialler} {wireId : String}

theorem books_new : new.Books where
  counted _ := Nat.zero_le _
  few _ attempt hattempt := absurd hattempt (by simp [new, ConnectTables.new])
  trying _ hsome := absurd hsome (by simp [new, ConnectTables.new])
  dialled _ hdial := by cases hdial
  connected _ _ hmapped := by cases hmapped
  held _ hengages := absurd hengages (by simp [ConnectTables.Engages, new, ConnectTables.new])

/-- Between two arms nothing holds a wire that is being tried. -/
theorem Trying.not_skips (trying : dialler.Trying wireId) (hselect : dialler.arm = .select) :
    dialler.tables.skips wireId = false := by
  rw [Bool.eq_false_iff, Ne, ConnectTables.skips_iff]
  rintro (hengages | ⟨app, _, hmapped⟩)
  · have hwire := trying.free hengages
    rw [hselect] at hwire
    cases hwire
  · rw [trying.unmapped] at hmapped
    cases hmapped

/-- A wire that is skipped needs no dial. -/
theorem Books.accounts_of_refused (books : dialler.Books) (hselect : dialler.arm = .select)
    (refused : dialler.tables.beginDial wireId = none) : dialler.Accounts wireId := by
  rcases ConnectTables.beginDial_eq_none refused with hskips | hmax
  · rcases ConnectTables.skips_iff.mp hskips with hengages | hconnected
    · rcases books.held wireId hengages with hwire | hconnected | hlost
      · rw [hselect] at hwire
        cases hwire
      · exact .inr (.inr (.inl hconnected))
      · exact .inr (.inr (.inr (.inr hlost)))
    · exact .inr (.inr (.inl hconnected))
  · cases hattempt : dialler.tables.attempts.lookup wireId with
    | none =>
        rw [hattempt] at hmax
        exact absurd hmax (by decide)
    | some attempt =>
        rw [hattempt] at hmax
        have hall := UInt8.le_antisymm (books.few wireId attempt hattempt) hmax
        exact .inr (.inr (.inr (.inl (hattempt.trans (congrArg some hall)))))

/-- A dial begins. -/
theorem Books.dialBegun (books : dialler.Books) (hselect : dialler.arm = .select)
    {tables : ConnectTables} (begun : dialler.tables.beginDial wireId = some tables) :
    (dialler.dialBegun wireId tables).Books := by
  obtain ⟨hfree, hfew, rfl⟩ := ConnectTables.beginDial_cases begun
  rw [Bool.eq_false_iff, Ne, ConnectTables.skips_iff, not_or] at hfree
  obtain ⟨hfree, hunconnected⟩ := hfree
  have hinbound : wireId ∉ dialler.tables.connectedInbound := fun hin => hfree (.inr hin)
  have hunmapped : dialler.tables.wireToApp.lookup wireId = none := by
    cases hmapped : dialler.tables.wireToApp.lookup wireId with
    | none => rfl
    | some app => exact absurd ⟨app, books.connected wireId app hmapped, hmapped⟩ hunconnected
  have hmore : ((dialler.tables.attempts.lookup wireId).getD 0 + 1).toNat =
      ((dialler.tables.attempts.lookup wireId).getD 0).toNat + 1 := by
    have hlt := UInt8.lt_iff_toNat_lt.mp hfew
    rw [UInt8.toNat_add]
    simp only [MAX_RETRIES] at hlt
    exact Nat.mod_eq_of_lt (by simp at hlt ⊢; omega)
  refine ⟨fun other => ?_, fun other attempt hattempt => ?_, fun other htried => ?_,
    fun other hdial => ?_, books.connected, fun other hengages => ?_⟩
  · by_cases hother : other = wireId
    · subst hother
      have hcounted := books.counted other
      simp only [Dialler.dialBegun, Function.update_self, AList.lookup_insert, Option.getD_some]
      omega
    · simp only [Dialler.dialBegun, Function.update_of_ne hother, AList.lookup_insert_ne hother]
      exact books.counted other
  · by_cases hother : other = wireId
    · subst hother
      simp only [Dialler.dialBegun, AList.lookup_insert, Option.mem_def, Option.some.injEq]
        at hattempt
      rw [← hattempt, UInt8.le_iff_toNat_le, hmore]
      exact UInt8.lt_iff_toNat_lt.mp hfew
    · simp only [Dialler.dialBegun, AList.lookup_insert_ne hother] at hattempt
      exact books.few other attempt hattempt
  · by_cases hother : other = wireId
    · subst hother
      exact ⟨hunmapped, Finset.notMem_erase _ _, Finset.notMem_empty _, fun _ => rfl⟩
    · simp only [Dialler.dialBegun, AList.lookup_insert_ne hother] at htried
      have htrying := books.trying other htried
      refine ⟨htrying.unmapped, fun hlost => htrying.kept (Finset.mem_of_mem_erase hlost),
        Finset.notMem_empty _, fun hengages => ?_⟩
      have hbefore : dialler.tables.Engages other :=
        hengages.imp_left fun hin => Finset.mem_of_mem_insert_of_ne hin hother
      have hwire := htrying.free hbefore
      rw [hselect] at hwire
      cases hwire
  · cases hdial
    exact ⟨by simp only [Dialler.dialBegun, AList.lookup_insert, Option.isSome_some], hinbound⟩
  · by_cases hother : other = wireId
    · exact .inl (congrArg some hother.symm)
    · have hbefore : dialler.tables.Engages other :=
        hengages.imp_left fun hin => Finset.mem_of_mem_insert_of_ne hin hother
      rcases books.held other hbefore with hwire | hconnected | hlost
      · rw [hselect] at hwire
        cases hwire
      · exact .inr (.inl hconnected)
      · exact .inr (.inr (Finset.mem_erase.mpr ⟨hother, hlost⟩))

theorem Accounts.dialBegun (hselect : dialler.arm = .select)
    {tables : ConnectTables} (begun : dialler.tables.beginDial wireId = some tables)
    {other : String} (accounts : dialler.Accounts other) :
    (dialler.dialBegun wireId tables).Accounts other := by
  obtain ⟨_, _, rfl⟩ := ConnectTables.beginDial_cases begun
  by_cases hother : other = wireId
  · exact .inl (congrArg DialArm.dial hother.symm)
  · rcases accounts with hdial | hwires | hconnected | hgave | hlost
    · rw [hselect] at hdial
      cases hdial
    · rw [hselect] at hwires
      exact absurd hwires (Finset.notMem_empty _)
    · exact .inr (.inr (.inl hconnected))
    · refine .inr (.inr (.inr (.inl ?_)))
      exact (AList.lookup_insert_ne hother).trans hgave
    · exact .inr (.inr (.inr (.inr (Finset.mem_erase.mpr ⟨hother, hlost⟩))))

/-- An accept begins. -/
theorem Books.acceptBegun (books : dialler.Books) (hselect : dialler.arm = .select) :
    (dialler.acceptBegun wireId).Books := by
  have hengages : ∀ other, (dialler.acceptBegun wireId).tables.Engages other →
      other = wireId ∨ dialler.tables.Engages other := by
    intro other hengages
    rcases hengages with hin | hin
    · exact (Finset.mem_insert.mp hin).imp_right .inl
    · exact (Finset.mem_insert.mp hin).imp_right .inr
  refine ⟨books.counted, books.few, fun other htried => ?_, fun other hdial => ?_,
    books.connected, fun other hafter => ?_⟩
  · have htrying := books.trying other htried
    refine ⟨htrying.unmapped, htrying.kept, Finset.notMem_empty _, fun hafter => ?_⟩
    rcases hengages other hafter with rfl | hbefore
    · rfl
    · have hwire := htrying.free hbefore
      rw [hselect] at hwire
      cases hwire
  · cases hdial
  · rcases hengages other hafter with rfl | hbefore
    · exact .inl rfl
    · rcases books.held other hbefore with hwire | hheld
      · rw [hselect] at hwire
        cases hwire
      · exact .inr hheld

theorem Accounts.acceptBegun (hselect : dialler.arm = .select) {other : String}
    (accounts : dialler.Accounts other) : (dialler.acceptBegun wireId).Accounts other := by
  rcases accounts with hdial | hwires | hrest
  · rw [hselect] at hdial
    cases hdial
  · rw [hselect] at hwires
    exact absurd hwires (Finset.notMem_empty _)
  · exact .inr (.inr hrest)

/-- An arm has reached a peer. -/
theorem Books.reached (books : dialler.Books) (hwire : dialler.arm.wire? = some wireId)
    (app : String) :
    (dialler.done wireId (dialler.tables.connected wireId app) (.ok app)).Books := by
  have hothers : ∀ other, other ≠ wireId → dialler.arm.wire? ≠ some other := by
    intro other hother hsome
    exact hother (Option.some.inj (hsome.symm.trans hwire))
  refine ⟨fun other => ?_, fun other attempt hattempt => ?_, fun other htried => ?_,
    fun other hdial => ?_, fun other held hmapped => ?_, fun other hengages => ?_⟩
  · by_cases hother : other = wireId
    · subst hother
      simp only [done, Function.update_self, Nat.zero_le]
    · simp only [done, ConnectTables.connected, Function.update_of_ne hother,
        AList.lookup_erase_ne hother]
      exact books.counted other
  · by_cases hother : other = wireId
    · subst hother
      simp only [done, ConnectTables.connected, AList.lookup_erase, Option.mem_def,
        reduceCtorEq] at hattempt
    · simp only [done, ConnectTables.connected, AList.lookup_erase_ne hother] at hattempt
      exact books.few other attempt hattempt
  · by_cases hother : other = wireId
    · subst hother
      simp only [done, ConnectTables.connected, AList.lookup_erase, Option.isSome_none,
        Bool.false_eq_true] at htried
    · simp only [done, ConnectTables.connected, AList.lookup_erase_ne hother] at htried
      have htrying := books.trying other htried
      refine ⟨?_, fun hlost => htrying.kept (Finset.mem_of_mem_erase hlost),
        Finset.notMem_empty _,
        fun hengages => absurd (htrying.free hengages) (hothers other hother)⟩
      exact (ConnectTables.lookup_connected other).trans ((if_neg hother).trans htrying.unmapped)
  · cases hdial
  · have hmapped := (ConnectTables.lookup_connected other).symm.trans hmapped
    split_ifs at hmapped
    · cases hmapped
      exact Finset.mem_insert_self _ _
    · exact Finset.mem_insert_of_mem (books.connected other held hmapped)
  · by_cases hother : other = wireId
    · right
      left
      exact ⟨app, Finset.mem_insert_self _ _,
        (ConnectTables.lookup_connected other).trans (if_pos hother)⟩
    · rcases books.held other hengages with hown | ⟨held, hpeer, hmapped⟩ | hlost
      · exact absurd hown (hothers other hother)
      · right
        left
        exact ⟨held, Finset.mem_insert_of_mem hpeer,
          (ConnectTables.lookup_connected other).trans ((if_neg hother).trans hmapped)⟩
      · exact .inr (.inr (Finset.mem_erase.mpr ⟨hother, hlost⟩))

theorem Accounts.reached (hwire : dialler.arm.wire? = some wireId) (app : String) {other : String}
    (accounts : dialler.Accounts other) :
    (dialler.done wireId (dialler.tables.connected wireId app) (.ok app)).Accounts other := by
  by_cases hother : other = wireId
  · right
    right
    left
    exact ⟨app, Finset.mem_insert_self _ _,
      (ConnectTables.lookup_connected other).trans (if_pos hother)⟩
  · rcases accounts with hdial | hwires | ⟨held, hpeer, hmapped⟩ | hgave | hlost
    · rw [hdial] at hwire
      exact absurd (Option.some.inj hwire) hother
    · rw [DialArm.wires_of_wire? hwire] at hwires
      exact absurd hwires (Finset.notMem_empty _)
    · right
      right
      left
      exact ⟨held, Finset.mem_insert_of_mem hpeer,
        (ConnectTables.lookup_connected other).trans ((if_neg hother).trans hmapped)⟩
    · right
      right
      right
      left
      exact (AList.lookup_erase_ne hother).trans hgave
    · exact .inr (.inr (.inr (.inr (Finset.mem_erase.mpr ⟨hother, hlost⟩))))

/-- What an arm that has failed leaves: its wire is free, and it may be given up. -/
structure Released (dialler : Dialler) (wireId : String) (tables : ConnectTables) : Prop where
  mapped : tables.wireToApp = dialler.tables.wireToApp
  peers : tables.connectedPeers = dialler.tables.connectedPeers
  free : ¬tables.Engages wireId
  others : ∀ other, tables.Engages other → dialler.tables.Engages other
  attempts : ∀ other, tables.attempts.lookup other = dialler.tables.attempts.lookup other ∨
    tables.attempts.lookup other = some MAX_RETRIES ∧
      (dialler.tables.attempts.lookup other).isSome

theorem Books.released_dial (books : dialler.Books) (hdial : dialler.arm = .dial wireId)
    (e : MlinkError) : dialler.Released wireId (dialler.tables.dialDone wireId (.error e)) := by
  obtain ⟨htried, hinbound⟩ := books.dialled wireId hdial
  have hattempts := @ConnectTables.lookup_attempts_dialDone dialler.tables wireId (.error e)
  obtain ⟨attempts, hdone⟩ := dialler.tables.dialDone_error wireId e
  rw [hdone] at hattempts ⊢
  refine ⟨rfl, rfl, ?_, fun other hengages => hengages.imp_left Finset.mem_of_mem_erase,
    fun other => ?_⟩
  · rintro (hengaged | hin)
    · exact Finset.notMem_erase _ _ hengaged
    · exact hinbound hin
  · rw [hattempts other]
    by_cases hother : other = wireId
    · subst hother
      rw [if_pos rfl]
      cases e with
      | roomMismatch _ => exact .inr ⟨rfl, htried⟩
      | _ => exact .inl rfl
    · rw [if_neg hother]
      exact .inl rfl

theorem released_accept (e : MlinkError) :
    dialler.Released wireId (dialler.tables.acceptDone wireId (.error e)) where
  mapped := rfl
  peers := rfl
  free := by
    rintro (hengaged | hin)
    · exact Finset.notMem_erase _ _ hengaged
    · exact Finset.notMem_erase _ _ hin
  others other hengages := hengages.imp Finset.mem_of_mem_erase Finset.mem_of_mem_erase
  attempts _ := .inl rfl

/-- An arm has failed. -/
theorem Books.released (books : dialler.Books) (hwire : dialler.arm.wire? = some wireId)
    {tables : ConnectTables} (released : dialler.Released wireId tables) (e : MlinkError) :
    (dialler.done wireId tables (.error e)).Books := by
  obtain ⟨hmapped, hpeers, hfree, hengages, hattempts⟩ := released
  have hothers : ∀ other, tables.Engages other → dialler.arm.wire? ≠ some other := by
    intro other hafter hsome
    cases Option.some.inj (hsome.symm.trans hwire)
    exact hfree hafter
  refine ⟨fun other => ?_, fun other attempt hattempt => ?_, fun other htried => ?_,
    fun other hdial => ?_, fun other app hlookup => ?_, fun other hafter => ?_⟩
  · show dialler.dials other ≤ ((tables.attempts.lookup other).getD 0).toNat
    rcases hattempts other with hsame | ⟨hall, htried⟩
    · rw [hsame]
      exact books.counted other
    · obtain ⟨attempt, hattempt⟩ := Option.isSome_iff_exists.mp htried
      have hcounted := books.counted other
      rw [hattempt] at hcounted
      rw [hall]
      exact hcounted.trans (UInt8.le_iff_toNat_le.mp (books.few other attempt hattempt))
  · rcases hattempts other with hsame | ⟨hall, _⟩
    · exact books.few other attempt (hsame.symm.trans hattempt)
    · cases hall.symm.trans hattempt
      exact UInt8.le_refl _
  · have htrying := books.trying other <| by
      rcases hattempts other with hsame | ⟨_, hbefore⟩
      · exact hsame ▸ htried
      · exact hbefore
    refine ⟨?_, htrying.kept, Finset.notMem_empty _,
      fun hafter => absurd (htrying.free (hengages other hafter)) (hothers other hafter)⟩
    show tables.wireToApp.lookup other = none
    rw [hmapped]
    exact htrying.unmapped
  · cases hdial
  · show app ∈ tables.connectedPeers
    rw [hpeers]
    refine books.connected other app ?_
    rw [← hmapped]
    exact hlookup
  · rcases books.held other (hengages other hafter) with hown | ⟨app, hpeer, hlookup⟩ | hlost
    · exact absurd hown (hothers other hafter)
    · right
      left
      exact ⟨app, hpeers ▸ hpeer, (congrArg (AList.lookup other) hmapped).trans hlookup⟩
    · exact .inr (.inr hlost)

/-- A wire that was dialled is to be found again, or given up. -/
theorem Accounts.released (hwire : dialler.arm.wire? = some wireId) {tables : ConnectTables}
    (released : dialler.Released wireId tables) (e : MlinkError) {other : String}
    (accounts : dialler.Accounts other) (hother : dialler.arm ≠ .dial other) :
    (dialler.done wireId tables (.error e)).Accounts other := by
  obtain ⟨hmapped, hpeers, _, _, hattempts⟩ := released
  rcases accounts with hdial | hwires | ⟨app, hpeer, hlookup⟩ | hgave | hlost
  · exact absurd hdial hother
  · rw [DialArm.wires_of_wire? hwire] at hwires
    exact absurd hwires (Finset.notMem_empty _)
  · right
    right
    left
    exact ⟨app, hpeers ▸ hpeer, (congrArg (AList.lookup other) hmapped).trans hlookup⟩
  · right
    right
    right
    left
    rcases hattempts other with hsame | ⟨hall, _⟩
    · exact hsame.trans hgave
    · exact hall
  · exact .inr (.inr (.inr (.inr hlost)))

/-- A peer has gone. -/
theorem Books.gone (books : dialler.Books) (hselect : dialler.arm = .select) (peerId : String) :
    (dialler.handle (.peerDisconnected peerId)).Books := by
  refine ⟨fun other => ?_, fun other attempt hattempt => ?_, fun other htried => ?_,
    fun other hdial => ?_, fun other app hmapped => ?_, fun other hengages => ?_⟩
  · simp only [handle]
    rw [ConnectTables.lookup_attempts_peerDisconnected]
    split_ifs
    · exact Nat.zero_le _
    · exact books.counted other
  · simp only [handle, ConnectTables.lookup_attempts_peerDisconnected] at hattempt
    split_ifs at hattempt
    · cases hattempt
    · exact books.few other attempt hattempt
  · simp only [handle, ConnectTables.lookup_attempts_peerDisconnected] at htried
    split_ifs at htried with hdead
    · cases htried
    · have htrying := books.trying other htried
      refine ⟨?_, htrying.kept, hdead, fun hengages => ?_⟩
      · rw [handle, ConnectTables.lookup_peerDisconnected, htrying.unmapped]
        exact if_neg nofun
      · have hwire := htrying.free (ConnectTables.engages_peerDisconnected_iff.mp hengages).1
        rw [hselect] at hwire
        cases hwire
  · cases hdial
  · rw [handle, ConnectTables.lookup_peerDisconnected] at hmapped
    split_ifs at hmapped with hdead
    refine Finset.mem_erase.mpr ⟨?_, books.connected other app hmapped⟩
    rintro rfl
    exact hdead hmapped
  · obtain ⟨hbefore, hkept⟩ := ConnectTables.engages_peerDisconnected_iff.mp hengages
    rcases books.held other hbefore with hwire | ⟨app, hpeer, hmapped⟩ | hlost
    · rw [hselect] at hwire
      cases hwire
    · right
      left
      refine ⟨app, Finset.mem_erase.mpr ⟨?_, hpeer⟩, ?_⟩
      · rintro rfl
        exact hkept hmapped
      · rw [handle, ConnectTables.lookup_peerDisconnected, if_neg hkept]
        exact hmapped
    · exact .inr (.inr hlost)

/-- The wires of a peer that has gone are to be told of; of the others there is no news. -/
theorem Accounts.gone (hselect : dialler.arm = .select) (peerId : String) {other : String}
    (accounts : dialler.Accounts other) :
    (dialler.handle (.peerDisconnected peerId)).Accounts other := by
  by_cases hdead : other ∈ dialler.tables.deadWires peerId
  · exact .inr (.inl hdead)
  · have hkept := mt ConnectTables.mem_deadWires.mpr hdead
    rcases accounts with hdial | hwires | ⟨app, hpeer, hmapped⟩ | hgave | hlost
    · rw [hselect] at hdial
      cases hdial
    · rw [hselect] at hwires
      exact absurd hwires (Finset.notMem_empty _)
    · right
      right
      left
      refine ⟨app, Finset.mem_erase.mpr ⟨?_, hpeer⟩, ?_⟩
      · rintro rfl
        exact hkept hmapped
      · rw [handle, ConnectTables.lookup_peerDisconnected, if_neg hkept]
        exact hmapped
    · right
      right
      right
      left
      rw [GaveUp, handle, ConnectTables.lookup_attempts_peerDisconnected, if_neg hdead]
      exact hgave
    · exact .inr (.inr (.inr (.inr hlost)))

/-- A wire that is connected stays so when another peer connects. -/
theorem Connected.more (connected : dialler.Connected wireId) (peerId : String) :
    (dialler.handle (.peerConnected peerId)).Connected wireId := by
  obtain ⟨app, hpeer, hmapped⟩ := connected
  exact ⟨app, Finset.mem_insert_of_mem hpeer, hmapped⟩

theorem Books.handle (books : dialler.Books) (hselect : dialler.arm = .select)
    (event : NodeEvent) : (dialler.handle event).Books := by
  cases event with
  | peerConnected peerId =>
      refine ⟨books.counted, books.few, fun other htried => ?_, books.dialled,
        fun other app hmapped => Finset.mem_insert_of_mem (books.connected other app hmapped),
        fun other hengages => (books.held other hengages).imp_right
          (.imp_left (Connected.more · peerId))⟩
      have htrying := books.trying other htried
      exact ⟨htrying.unmapped, htrying.kept, htrying.silent, htrying.free⟩
  | peerDisconnected peerId => exact books.gone hselect peerId
  | messageReceived _ _ | linkAdded _ _ _ | linkRemoved _ _ _ | linkSwitched _ _ _ _ => exact books

theorem Accounts.handle (hselect : dialler.arm = .select) (event : NodeEvent) {other : String}
    (accounts : dialler.Accounts other) : (dialler.handle event).Accounts other := by
  cases event with
  | peerConnected peerId =>
      exact accounts.imp_right (.imp_right (.imp_left (Connected.more · peerId)))
  | peerDisconnected peerId => exact accounts.gone hselect peerId
  | messageReceived _ _ | linkAdded _ _ _ | linkRemoved _ _ _ | linkSwitched _ _ _ _ =>
      exact accounts

/-- After a gap every wire that led anywhere is lost sight of. -/
theorem Connected.lagged (connected : dialler.Connected wireId) (peers : List String) :
    wireId ∈ (dialler.lagged peers).lost := by
  obtain ⟨app, _, hmapped⟩ := connected
  apply Finset.mem_union_right
  rw [ConnectTables.mem_mapped, hmapped, Option.isSome_some]

theorem Books.lagged (books : dialler.Books) (peers : List String) :
    (dialler.lagged peers).Books := by
  refine ⟨books.counted, books.few, fun other htried => ?_, books.dialled,
    fun other app hmapped => ?_, fun other hengages => ?_⟩
  · have htrying := books.trying other htried
    refine ⟨rfl, fun hlost => ?_, htrying.silent, htrying.free⟩
    rcases Finset.mem_union.mp hlost with hlost | hmapped
    · exact htrying.kept hlost
    · rw [ConnectTables.mem_mapped, htrying.unmapped] at hmapped
      cases hmapped
  · cases hmapped
  · rcases books.held other hengages with hwire | hconnected | hlost
    · exact .inl hwire
    · exact .inr (.inr (hconnected.lagged peers))
    · exact .inr (.inr (Finset.mem_union_left _ hlost))

theorem Accounts.lagged (peers : List String) {other : String}
    (accounts : dialler.Accounts other) : (dialler.lagged peers).Accounts other := by
  rcases accounts with hdial | hwires | hconnected | hgave | hlost
  · exact .inl hdial
  · exact .inr (.inl hwires)
  · exact .inr (.inr (.inr (.inr (hconnected.lagged peers))))
  · exact .inr (.inr (.inr (.inl hgave)))
  · exact .inr (.inr (.inr (.inr (Finset.mem_union_left _ hlost))))

/-- The scanner has been told of a wire, or it could not be. -/
theorem Books.told (books : dialler.Books) {wires : Finset String}
    (harm : dialler.arm = .tell wires) (hmem : wireId ∈ wires) (heard : Bool) :
    (dialler.told wireId wires heard).Books := by
  have hlost : ∀ other, other ∈ (dialler.told wireId wires heard).lost →
      other ∈ dialler.lost ∨ other = wireId := by
    intro other hafter
    cases heard with
    | true => exact .inl hafter
    | false => exact (Finset.mem_insert.mp hafter).symm
  have hmore : ∀ other, other ∈ dialler.lost → other ∈ (dialler.told wireId wires heard).lost := by
    intro other hbefore
    cases heard with
    | true => exact hbefore
    | false => exact Finset.mem_insert_of_mem hbefore
  have hwires : dialler.arm.wires = wires := by rw [harm]; rfl
  refine ⟨books.counted, books.few, fun other htried => ?_, fun other hdial => ?_,
    books.connected, fun other hengages => ?_⟩
  · have htrying := books.trying other htried
    have hsilent := htrying.silent
    rw [hwires] at hsilent
    refine ⟨htrying.unmapped, fun hafter => ?_,
      fun hin => hsilent (Finset.mem_of_mem_erase hin), fun hengages => ?_⟩
    · rcases hlost other hafter with hbefore | rfl
      · exact htrying.kept hbefore
      · exact hsilent hmem
    · have hwire := htrying.free hengages
      rw [harm] at hwire
      cases hwire
  · cases hdial
  · rcases books.held other hengages with hwire | hconnected | hbefore
    · rw [harm] at hwire
      cases hwire
    · exact .inr (.inl hconnected)
    · exact .inr (.inr (hmore other hbefore))

theorem Accounts.told {wires : Finset String} (harm : dialler.arm = .tell wires) (heard : Bool)
    {other : String} (accounts : dialler.Accounts other) :
    (dialler.told wireId wires heard).Accounts other ∨ other = wireId ∧ heard = true := by
  by_cases hown : other = wireId
  · cases heard with
    | true => exact .inr ⟨hown, rfl⟩
    | false =>
        left
        exact .inr (.inr (.inr (.inr (Finset.mem_insert.mpr (.inl hown)))))
  · left
    rcases accounts with hdial | hwires | hconnected | hgave | hlost
    · rw [harm] at hdial
      cases hdial
    · rw [harm] at hwires
      exact .inr (.inl (Finset.mem_erase.mpr ⟨hown, hwires⟩))
    · exact .inr (.inr (.inl hconnected))
    · exact .inr (.inr (.inr (.inl hgave)))
    · right
      right
      right
      right
      cases heard with
      | true => exact hlost
      | false => exact Finset.mem_insert_of_mem hlost

/-- From one arm without a wire to another the books say the same. -/
theorem Books.rest (books : dialler.Books) {arm : DialArm} (hbefore : dialler.arm.wire? = none)
    (hwire : arm.wire? = none) (hwires : arm.wires = ∅) : Books { dialler with arm } := by
  have hfree : ∀ other, dialler.arm.wire? ≠ some other := by
    intro other hsome
    rw [hbefore] at hsome
    cases hsome
  refine ⟨books.counted, books.few, fun other htried => ?_, fun other hdial => ?_,
    books.connected, fun other hengages => ?_⟩
  · have htrying := books.trying other htried
    refine ⟨htrying.unmapped, htrying.kept, ?_,
      fun hengages => absurd (htrying.free hengages) (hfree other)⟩
    rw [hwires]
    exact Finset.notMem_empty _
  · have hdial : arm = .dial other := hdial
    rw [hdial] at hwire
    cases hwire
  · exact .inr ((books.held other hengages).resolve_left (hfree other))

end Dialler

/-! ## Nothing is left aside -/

namespace Discovery

/-- The wire is on its way, or there is a reason why it is not. -/
def Covers (discovery : Discovery) (wireId : String) : Prop :=
  wireId ∈ discovery.queued ∨ discovery.dialler.Accounts wireId

/-- The invariant: the books are right, and while both loops run every wire that the scanner
will not hand on is covered. -/
structure Kept (discovery : Discovery) : Prop where
  books : discovery.dialler.Books
  covered : discovery.Runs → ∀ wireId ∈ discovery.scanner.seen, discovery.Covers wireId

variable {discovery after : Discovery} {wireId : String}

theorem kept_new (appUuid : String) : (new appUuid).Kept where
  books := Dialler.books_new
  covered _ _ hseen := absurd hseen (Finset.notMem_empty _)

theorem mem_queued : wireId ∈ discovery.queued ↔
    wireId ∈ discovery.phase.fresh.map (·.id) ∨ wireId ∈ discovery.peerRx.map (·.id) ∨
      wireId ∈ discovery.sleeping ∨ wireId ∈ discovery.unseeRx := by
  simp only [queued, List.mem_append, or_assoc]

theorem Kept.drain (kept : discovery.Kept) (taken : discovery.drain = some after) :
    after.Kept := by
  rcases discovery with ⟨scanner, phase, peerRx, unseeRx, sleeping, dialler⟩
  cases phase with
  | waiting | sending fresh | stopped => cases taken
  | draining =>
      cases unseeRx with
      | nil =>
          cases taken
          exact ⟨kept.books, fun runs => kept.covered ⟨nofun, runs.2⟩⟩
      | cons id rest =>
          cases taken
          refine ⟨kept.books, fun runs wireId hseen => ?_⟩
          obtain ⟨hother, hbefore⟩ := Finset.mem_erase.mp hseen
          refine (kept.covered runs wireId hbefore).imp_left fun hqueued => ?_
          rw [mem_queued] at hqueued ⊢
          exact hqueued.imp_right (.imp_right (.imp_right
            fun hin => (List.mem_cons.mp hin).resolve_left hother))

theorem Kept.round (kept : discovery.Kept) {answer : Result (List Transport.DiscoveredPeer)}
    (taken : discovery.round answer = some after) : after.Kept := by
  rcases discovery with ⟨scanner, phase, peerRx, unseeRx, sleeping, dialler⟩
  cases phase with
  | draining | sending fresh | stopped => cases taken
  | waiting =>
      simp only [Discovery.round] at taken
      split_ifs at taken with hreturned
      · cases taken
        exact ⟨kept.books, fun runs => absurd rfl runs.1⟩
      · cases answer with
        | error e =>
            cases taken
            exact ⟨kept.books, fun runs => absurd rfl runs.1⟩
        | ok all =>
            cases taken
            refine ⟨kept.books, fun runs wireId hseen => ?_⟩
            have hseen : wireId ∈ (scanner.sift all).2.seen := hseen
            rw [sift_snd, Finset.mem_union, List.mem_toFinset] at hseen
            rcases hseen with hbefore | hfresh
            · refine (kept.covered ⟨nofun, runs.2⟩ wireId hbefore).imp_left fun hqueued => ?_
              rw [mem_queued] at hqueued ⊢
              exact .inr (hqueued.resolve_left List.not_mem_nil)
            · exact .inl (mem_queued.mpr (.inl hfresh))

theorem Kept.send (kept : discovery.Kept) (taken : discovery.send = some after) :
    after.Kept := by
  rcases discovery with ⟨scanner, phase, peerRx, unseeRx, sleeping, dialler⟩
  cases phase with
  | draining | waiting | stopped => cases taken
  | sending fresh =>
      cases fresh with
      | nil =>
          cases taken
          exact ⟨kept.books, fun runs => kept.covered ⟨nofun, runs.2⟩⟩
      | cons peer rest =>
          simp only [Discovery.send] at taken
          split_ifs at taken with hreturned hroom
          · cases taken
            exact ⟨kept.books, fun runs => absurd rfl runs.1⟩
          · cases taken
            refine ⟨kept.books, fun runs wireId hseen => ?_⟩
            refine (kept.covered ⟨nofun, runs.2⟩ wireId hseen).imp_left fun hqueued => ?_
            rw [mem_queued] at hqueued ⊢
            simp only [ScanPhase.fresh, List.map_cons, List.mem_cons, List.map_append,
              List.mem_append, List.map_nil, List.not_mem_nil, or_false] at hqueued ⊢
            tauto

theorem Kept.wake (kept : discovery.Kept) (taken : discovery.wake wireId = some after) :
    after.Kept := by
  rw [Discovery.wake] at taken
  split_ifs at taken with hsleeps hstopped hroom
  · cases taken
    exact ⟨kept.books, fun runs => absurd hstopped runs.1⟩
  · cases taken
    refine ⟨kept.books, fun runs other hseen => ?_⟩
    refine (kept.covered runs other hseen).imp_left fun hqueued => ?_
    rw [mem_queued] at hqueued ⊢
    refine hqueued.imp_right (.imp_right fun hin => ?_)
    rcases hin with hslept | hasked
    · by_cases hown : other = wireId
      · exact .inr (List.mem_append_right _ (List.mem_singleton.mpr hown))
      · exact .inl ((List.mem_erase_of_ne hown).mpr hslept)
    · exact .inr (List.mem_append_left _ hasked)

theorem Kept.takePeer (kept : discovery.Kept) (taken : discovery.takePeer = some after) :
    after.Kept := by
  rw [Discovery.takePeer] at taken
  split at taken
  next peer rest hselect hpeers =>
    have hqueued : ∀ wireId, wireId ∈ discovery.queued → wireId = peer.id ∨
        wireId ∈ discovery.phase.fresh.map (·.id) ∨ wireId ∈ rest.map (·.id) ∨
          wireId ∈ discovery.sleeping ∨ wireId ∈ discovery.unseeRx := by
      intro wireId hqueued
      rw [mem_queued, hpeers, List.map_cons, List.mem_cons] at hqueued
      tauto
    split at taken
    next hrefused =>
      cases taken
      refine ⟨kept.books, fun runs wireId hseen => ?_⟩
      rcases kept.covered runs wireId hseen with hbefore | haccounts
      · rcases hqueued wireId hbefore with rfl | hstill
        · exact .inr (kept.books.accounts_of_refused hselect hrefused)
        · exact .inl (mem_queued.mpr hstill)
      · exact .inr haccounts
    next tables hbegun =>
      cases taken
      refine ⟨kept.books.dialBegun hselect hbegun, fun runs wireId hseen => ?_⟩
      have hruns : discovery.Runs := ⟨runs.1, by rw [hselect]; nofun⟩
      rcases kept.covered hruns wireId hseen with hbefore | haccounts
      · rcases hqueued wireId hbefore with rfl | hstill
        · exact .inr (.inl rfl)
        · exact .inl (mem_queued.mpr hstill)
      · exact .inr (haccounts.dialBegun hselect hbegun)
  next hselect hpeers =>
    split_ifs at taken
    cases taken
    refine ⟨kept.books.rest (by rw [hselect]; rfl) rfl rfl, fun runs => absurd rfl runs.2⟩
  next => cases taken

theorem Kept.takeConn (kept : discovery.Kept) (taken : discovery.takeConn wireId = some after) :
    after.Kept := by
  rw [Discovery.takeConn] at taken
  split at taken
  next hselect =>
    cases taken
    refine ⟨kept.books.acceptBegun hselect, fun runs other hseen => ?_⟩
    have hruns : discovery.Runs := ⟨runs.1, by rw [hselect]; nofun⟩
    exact (kept.covered hruns other hseen).imp_right (·.acceptBegun hselect)
  next => cases taken

theorem Kept.finish (kept : discovery.Kept) {result : Result String}
    (taken : discovery.finish result = some after) : after.Kept := by
  simp only [Discovery.finish] at taken
  split at taken
  next wireId hdial =>
    cases taken
    have hwire : discovery.dialler.arm.wire? = some wireId := by rw [hdial]; rfl
    have hmore : ∀ other, other ∈ discovery.queued → other ∈ Discovery.queued
        { discovery with
          sleeping := discovery.sleeping ++ if retries result then [wireId] else [] } := by
      intro other hqueued
      rw [mem_queued] at hqueued ⊢
      exact hqueued.imp_right (.imp_right (.imp_left (List.mem_append_left _)))
    cases result with
    | ok app =>
        refine ⟨kept.books.reached hwire app, fun runs other hseen => ?_⟩
        have hruns : discovery.Runs := ⟨runs.1, by rw [hdial]; nofun⟩
        exact (kept.covered hruns other hseen).imp (hmore other) (·.reached hwire app)
    | error e =>
        have hreleased := kept.books.released_dial hdial e
        refine ⟨kept.books.released hwire hreleased e, fun runs other hseen => ?_⟩
        have hruns : discovery.Runs := ⟨runs.1, by rw [hdial]; nofun⟩
        rcases kept.covered hruns other hseen with hqueued | haccounts
        · exact .inl (hmore other hqueued)
        · by_cases hown : other = wireId
          · -- a failed dial leaves a task behind, or the peer is in another room
            subst hown
            cases e with
            | roomMismatch _ =>
                right
                right
                right
                right
                left
                exact (ConnectTables.lookup_attempts_dialDone _ _).trans (if_pos rfl)
            | _ =>
                left
                rw [mem_queued]
                exact .inr (.inr (.inl (List.mem_append_right _ List.mem_cons_self)))
          · exact .inr (haccounts.released hwire hreleased e
              (by rw [hdial]; exact fun heq => hown (DialArm.dial.inj heq).symm))
  next wireId haccept =>
    cases taken
    have hwire : discovery.dialler.arm.wire? = some wireId := by rw [haccept]; rfl
    cases result with
    | ok app =>
        refine ⟨kept.books.reached hwire app, fun runs other hseen => ?_⟩
        have hruns : discovery.Runs := ⟨runs.1, by rw [haccept]; nofun⟩
        exact (kept.covered hruns other hseen).imp_right (·.reached hwire app)
    | error e =>
        refine ⟨kept.books.released hwire (Dialler.released_accept e) e,
          fun runs other hseen => ?_⟩
        have hruns : discovery.Runs := ⟨runs.1, by rw [haccept]; nofun⟩
        exact (kept.covered hruns other hseen).imp_right
          (·.released hwire (Dialler.released_accept e) e (by rw [haccept]; nofun))
  next => cases taken

theorem Kept.event (kept : discovery.Kept) {event : NodeEvent}
    (taken : discovery.event event = some after) : after.Kept := by
  rw [Discovery.event] at taken
  split at taken
  next hselect =>
    cases taken
    refine ⟨kept.books.handle hselect event, fun runs other hseen => ?_⟩
    have hruns : discovery.Runs := ⟨runs.1, by rw [hselect]; nofun⟩
    exact (kept.covered hruns other hseen).imp_right (·.handle hselect event)
  next => cases taken

theorem Kept.lagged (kept : discovery.Kept) {peers : List String}
    (taken : discovery.lagged peers = some after) : after.Kept := by
  rw [Discovery.lagged] at taken
  split at taken
  next hselect =>
    cases taken
    refine ⟨kept.books.lagged peers, fun runs other hseen => ?_⟩
    exact (kept.covered runs other hseen).imp_right (·.lagged peers)
  next => cases taken

theorem Kept.tell (kept : discovery.Kept) (taken : discovery.tell wireId = some after) :
    after.Kept := by
  rw [Discovery.tell] at taken
  split at taken
  next wires harm =>
    have hruns : discovery.phase ≠ .stopped → discovery.Runs := by
      intro hphase
      exact ⟨hphase, by rw [harm]; nofun⟩
    split_ifs at taken with hmem hroom
    · cases taken
      refine ⟨kept.books.told harm hmem true, fun runs other hseen => ?_⟩
      rcases kept.covered (hruns runs.1) other hseen with hqueued | haccounts
      · left
        rw [mem_queued] at hqueued ⊢
        exact hqueued.imp_right (.imp_right (.imp_right (List.mem_append_left _)))
      · have htold : (discovery.dialler.told wireId wires true).Accounts other ∨
            other = wireId ∧ true = true := haccounts.told harm true
        rcases htold with hstill | ⟨rfl, _⟩
        · exact .inr hstill
        · left
          rw [mem_queued]
          exact .inr (.inr (.inr (List.mem_append_right _ List.mem_cons_self)))
    · cases taken
      refine ⟨kept.books.told harm hmem false, fun runs other hseen => ?_⟩
      refine (kept.covered (hruns runs.1) other hseen).imp_right fun haccounts => ?_
      exact (haccounts.told harm false).resolve_right fun ⟨_, hfalse⟩ => nomatch hfalse
  next => cases taken

theorem Kept.told (kept : discovery.Kept) (taken : discovery.told = some after) :
    after.Kept := by
  rw [Discovery.told] at taken
  split_ifs at taken with harm
  cases taken
  refine ⟨kept.books.rest (by rw [harm]; rfl) rfl rfl, fun runs other hseen => ?_⟩
  have hruns : discovery.Runs := ⟨runs.1, by rw [harm]; nofun⟩
  refine (kept.covered hruns other hseen).imp_right fun haccounts => ?_
  rcases haccounts with hdial | hwires | hrest
  · rw [harm] at hdial
    cases hdial
  · rw [harm] at hwires
    exact absurd hwires (Finset.notMem_empty _)
  · exact .inr (.inr hrest)

theorem Kept.close (kept : discovery.Kept) (taken : discovery.close = some after) :
    after.Kept := by
  rw [Discovery.close] at taken
  split at taken
  next hselect =>
    cases taken
    exact ⟨kept.books.rest (by rw [hselect]; rfl) rfl rfl, fun runs => absurd rfl runs.2⟩
  next => cases taken

theorem Kept.next (kept : discovery.Kept) {move : DiscoveryMove}
    (taken : discovery.next move = some after) : after.Kept := by
  cases move with
  | drain => exact kept.drain taken
  | round answer => exact kept.round taken
  | send => exact kept.send taken
  | wake wireId => exact kept.wake taken
  | takePeer => exact kept.takePeer taken
  | takeConn wireId => exact kept.takeConn taken
  | finish result => exact kept.finish taken
  | event event => exact kept.event taken
  | lagged peers => exact kept.lagged taken
  | tell wireId => exact kept.tell taken
  | told => exact kept.told taken
  | close => exact kept.close taken

/-- A round hands on every id that may be handed on. -/
theorem mem_ids_sift (scanner : Scanner) {all : List Transport.DiscoveredPeer}
    {peer : Transport.DiscoveredPeer} (hfound : peer ∈ all)
    (heligible : scanner.eligible peer = true) (hunseen : peer.id ∉ scanner.seen) :
    peer.id ∈ (scanner.sift all).1.map (·.id) := by
  fun_induction Scanner.sift scanner all with
  | case1 scanner => cases hfound
  | case2 scanner other rest hself ih =>
      rcases List.mem_cons.mp hfound with rfl | hlater
      · simp [Scanner.eligible, hself] at heligible
      · exact ih hlater heligible hunseen
  | case3 scanner other rest _ hfiltered ih =>
      rcases List.mem_cons.mp hfound with rfl | hlater
      · simp_all [Scanner.eligible]
      · exact ih hlater heligible hunseen
  | case4 scanner other rest _ _ hseen ih =>
      rcases List.mem_cons.mp hfound with rfl | hlater
      · exact absurd hseen hunseen
      · exact ih hlater heligible hunseen
  | case5 scanner other rest _ _ _ later ih =>
      by_cases hown : peer.id = other.id
      · exact List.mem_cons.mpr (.inl hown)
      · have hlater := (List.mem_cons.mp hfound).resolve_left fun heq => hown (congrArg _ heq)
        refine List.mem_cons_of_mem _ (ih hlater heligible fun hseen => ?_)
        exact hunseen ((Finset.mem_insert.mp hseen).resolve_left hown)

/-- What the two loops promise of a wire. -/
structure FoundAgain (discovery : Discovery) : Prop where
  /-- It is dialled a few times, and no more before it is connected. -/
  few : ∀ wireId, discovery.dialler.dials wireId ≤ MAX_RETRIES.toNat
  /-- While it has attempts left, it is on its way or will be handed on. -/
  again : discovery.Runs → ∀ wireId, ∀ attempt ∈ discovery.dialler.tables.attempts.lookup wireId,
    attempt < MAX_RETRIES → wireId ∈ discovery.scanner.seen →
      discovery.dialler.arm = .dial wireId ∨ wireId ∈ discovery.queued
  /-- And when the loop takes it, the loop dials it. -/
  ready : discovery.dialler.arm = .select → ∀ wireId,
    ∀ attempt ∈ discovery.dialler.tables.attempts.lookup wireId,
      attempt < MAX_RETRIES → (discovery.dialler.tables.beginDial wireId).isSome
  /-- A wire that will not be handed on is on its way, or there is a reason. -/
  covered : discovery.Runs → ∀ wireId ∈ discovery.scanner.seen, discovery.Covers wireId
  /-- At rest, the next round hands on every wire without one, and the loop would dial it. -/
  settled : discovery.AtRest → ∀ all, ∀ peer ∈ all, discovery.scanner.eligible peer = true →
    ¬discovery.dialler.Accounts peer.id →
      peer.id ∈ (discovery.scanner.sift all).1.map (·.id) ∧
        (discovery.dialler.tables.beginDial peer.id).isSome

theorem Kept.foundAgain (kept : discovery.Kept) : discovery.FoundAgain where
  few wireId := by
    apply (kept.books.counted wireId).trans
    cases hattempt : discovery.dialler.tables.attempts.lookup wireId with
    | none => exact Nat.zero_le _
    | some attempt => exact UInt8.le_iff_toNat_le.mp (kept.books.few wireId attempt hattempt)
  again runs wireId attempt hattempt hleft hseen := by
    have htrying := kept.books.trying wireId (Option.isSome_of_mem hattempt)
    rcases kept.covered runs wireId hseen with hqueued | hdial | hwires | hconnected | hgave | hlost
    · exact .inr hqueued
    · exact .inl hdial
    · exact absurd hwires htrying.silent
    · obtain ⟨app, _, hmapped⟩ := hconnected
      rw [htrying.unmapped] at hmapped
      cases hmapped
    · cases hgave.symm.trans hattempt
      exact absurd hleft (UInt8.lt_irrefl _)
    · exact absurd hlost htrying.kept
  ready hselect wireId attempt hattempt hleft := by
    have htrying := kept.books.trying wireId (Option.isSome_of_mem hattempt)
    rw [Option.isSome_iff_ne_none]
    intro hrefused
    rcases ConnectTables.beginDial_eq_none hrefused with hskips | hmax
    · rw [htrying.not_skips hselect] at hskips
      cases hskips
    · rw [Option.mem_def.mp hattempt, Option.getD_some] at hmax
      exact absurd hleft (UInt8.not_lt.mpr hmax)
  covered := kept.covered
  settled rest all peer hpeer heligible hnone := by
    obtain ⟨hphase, hselect, hqueued⟩ := rest
    constructor
    · apply mem_ids_sift _ hpeer heligible
      intro hseen
      have hruns : discovery.Runs := ⟨by rw [hphase]; nofun, by rw [hselect]; nofun⟩
      rcases kept.covered hruns peer.id hseen with hin | haccounts
      · rw [hqueued] at hin
        exact List.not_mem_nil hin
      · exact hnone haccounts
    · rw [Option.isSome_iff_ne_none]
      exact fun hrefused => hnone (kept.books.accounts_of_refused hselect hrefused)

/-- Wherever the two loops and their tasks are, a wire is dialled a few times and no more
before it is connected, and while it has attempts left it comes up again. No wire is left
aside unless it is connected or given up, or a gap or a full channel has lost it. -/
theorem foundAgain_of_reachable {appUuid : String}
    (reached : (system appUuid).Reachable discovery) : discovery.FoundAgain := by
  have kept : discovery.Kept := by
    apply reached.invariant Kept
    · intro _ hstart
      rw [hstart]
      exact kept_new appUuid
    · exact fun _ _ _ _ kept taken => kept.next taken
  exact kept.foundAgain

/-- A dial fails, and its task asks for the wire again. -/
def refused : List DiscoveryMove :=
  [.drain, .round (.ok [⟨"wire", "phone", none, []⟩]), .send, .takePeer,
    .finish (.error .timeout), .send, .wake "wire"]

theorem foundAgain_of_reachable_refused :
    (refused.foldlM Discovery.next (new "me")).map unseeRx = some ["wire"] ∧
      ∀ discovery ∈ refused.foldlM Discovery.next (new "me"), discovery.FoundAgain :=
  ⟨by decide, fun _ htaken =>
    foundAgain_of_reachable
      ((System.Reachable.init rfl).run (.of_foldlM (fun hstep => hstep) htaken))⟩

end Discovery

end Mlink.Daemon
