/-
# Sends and acknowledgements in any order

A send takes its number under one lock, chooses a link and writes under others,
and enters the ring under a last one. Other sends and the handling of
acknowledgements run in between. The ring then holds no number that an
acknowledgement has covered, in the order of the numbers, exactly as long as each
send enters it before its acknowledgement is handled and behind smaller numbers
only.
-/

import Mlink.Core.Session.ManagerTasks

namespace Mlink.Core

open Mlink.Protocol Transition

/-- Where a send stands, from its packed frame to what it returns. -/
inductive SendStage
  /-- About to read which link is active. -/
  | reading
  | resolving (id : String)
  | picking
  /-- The link is the best, and is to become active if none is. -/
  | pinning (id : String)
  | pinned (id : String)
  | picked (linkId : String)
  /-- The first write failed. -/
  | failing (linkId : String)
  | promoting (nextId : String)
  | promoted (newId : String)
  | relinked (linkId : String)
  /-- A link took the frame, and the ring does not hold it yet. -/
  | written
  | finished (result : Result UInt32)

/-- A send between its steps. Its logical number is the count of numbers handed out
before it. -/
structure SendTask where
  number : Nat
  seq : UInt32
  bytes : Bytes
  msgType : MessageType
  stage : SendStage

namespace SendTask

/-- The next step enters the frame into the ring. -/
def records (task : SendTask) : Bool :=
  match task.stage with
  | .written => true
  | _ => false

/-- What one lock's worth of a send does to the session, and where it then stands. -/
def advance (task : SendTask) (session : Session) (io : LinkIo) : SendStage × Session :=
  match task.stage with
  | .reading =>
      match session.active with
      | some id => (.resolving id, session)
      | none => (.picking, session)
  | .resolving id =>
      match session.linkById id with
      | some link => (if link.isHealthy io.now then .picked link.id else .picking, session)
      | none => (.picking, session)
  | .picking =>
      match session.pickBest io.now with
      | some id => (.pinning id, session)
      | none => (.finished (.error session.noHealthyLink), session)
  | .pinning id => (.pinned id, session.pin id)
  | .pinned id =>
      match session.linkById id with
      | some link => (.picked link.id, session)
      | none => (.finished (.error session.noHealthyLink), session)
  | .picked linkId =>
      let (attempt, session) := session.writeLink linkId task.bytes io
      match attempt.outcome with
      | .ok () => (.written, session)
      | .error _ => (.failing linkId, session)
  | .failing linkId =>
      match session.bestExcluding linkId io.now with
      | some nextId => (.promoting nextId, session)
      | none => (.finished (.error session.noHealthyLink), session)
  | .promoting nextId => (.promoted nextId, session.activate nextId .activeFailed)
  | .promoted newId =>
      match session.linkById newId with
      | some newLink => (.relinked newLink.id, session)
      | none => (.finished (.error session.noHealthyLink), session)
  | .relinked linkId =>
      let (attempt, session) := session.writeLink linkId task.bytes io
      match attempt.outcome with
      | .ok () => (.written, session)
      | .error _ => (.finished (.error session.noHealthyLink), session)
  | .written =>
      (.finished (.ok task.seq), session.recordUnacked task.seq task.bytes task.msgType)
  | .finished result => (.finished result, session)

variable (task : SendTask) (session : Session) (io : LinkIo)

/-- A step before the last touches neither the ring nor the counter. -/
theorem advance_keeps (hrecords : task.records = false) :
    (task.advance session io).2.unacked = session.unacked ∧
      (task.advance session io).2.sendSeq = session.sendSeq := by
  rcases task with ⟨number, seq, bytes, msgType, stage⟩
  cases stage with
  | written => cases hrecords
  | reading | resolving _ | picking | pinned _ | failing _ | promoted _ =>
      simp only [advance]
      split <;> exact ⟨rfl, rfl⟩
  | picked _ | relinked _ =>
      simp only [advance]
      split <;> exact ⟨rfl, rfl⟩
  | pinning _ | promoting _ | finished _ => exact ⟨rfl, rfl⟩

theorem advance_of_records (hrecords : task.records = true) :
    (task.advance session io).2 =
      session.recordUnacked task.seq task.bytes task.msgType := by
  rcases task with ⟨number, seq, bytes, msgType, stage⟩
  cases stage with
  | written => rfl
  | reading | resolving _ | picking | pinning _ | pinned _ | picked _ | failing _ | promoting _
  | promoted _ | relinked _ | finished _ => cases hrecords

/-- No step of a send under way takes another number. -/
theorem advance_sendSeq : (task.advance session io).2.sendSeq = session.sendSeq := by
  cases hrecords : task.records with
  | true =>
      rw [advance_of_records task session io hrecords]
      rfl
  | false => exact (advance_keeps task session io hrecords).2

/-! ### A send that nobody disturbs -/

/-- Several steps of one send in a row. -/
def steps (task : SendTask) (session : Session) : List LinkIo → SendStage × Session
  | [] => (task.stage, session)
  | io :: rest =>
      let (stage, session) := task.advance session io
      { task with stage }.steps session rest

/-- Some steps in a row take the send from one stage and session to another. -/
def Reaches (task : SendTask) (source target : SendStage × Session) : Prop :=
  ∃ ios, { task with stage := source.1 }.steps source.2 ios = target

variable {task} {source middle target : SendStage × Session}

theorem Reaches.refl (source : SendStage × Session) : task.Reaches source source := ⟨[], rfl⟩

theorem Reaches.step (io : LinkIo) (middle : SendStage × Session)
    (taken : { task with stage := source.1 }.advance source.2 io = middle)
    (rest : task.Reaches middle target) : task.Reaches source target := by
  obtain ⟨ios, hsteps⟩ := rest
  refine ⟨io :: ios, ?_⟩
  rw [steps, taken]
  exact hsteps

theorem Reaches.single (io : LinkIo)
    (taken : { task with stage := source.1 }.advance source.2 io = target) :
    task.Reaches source target := .step io target taken (.refl target)

theorem Reaches.trans (first : task.Reaches source middle) (second : task.Reaches middle target) :
    task.Reaches source target := by
  obtain ⟨ios, hfirst⟩ := first
  induction ios generalizing source with
  | nil =>
      rw [← show source = middle from hfirst] at second
      exact second
  | cons io rest ih => exact .step io _ rfl (ih hfirst)

/-- The stage and session in which the choice of a link ends. -/
def chosen : Option Link × Session → SendStage × Session
  | (some link, session) => (.picked link.id, session)
  | (none, session) => (.finished (.error session.noHealthyLink), session)

/-- The best link is chosen and becomes active if none was. -/
theorem reaches_pickAndPin (io : LinkIo) :
    task.Reaches (.picking, session) (chosen (session.pickAndPin io.now)) := by
  cases hbest : session.pickBest io.now with
  | none =>
      apply Reaches.single io
      simp only [advance, Session.pickAndPin, hbest]
      rfl
  | some id =>
      apply Reaches.step io (.pinning id, session)
      · simp only [advance, hbest]
      · apply Reaches.step io (.pinned id, session.pin id) rfl
        apply Reaches.single io
        rw [Session.pickAndPin, hbest]
        show _ = chosen ((session.pin id).linkById id, session.pin id)
        cases hlink : (session.pin id).linkById id with
        | none => simp only [advance, hlink, chosen]
        | some link => simp only [advance, hlink, chosen]

/-- Undisturbed, the choice of a link is `current_or_pick`. -/
theorem reaches_currentOrPick (io : LinkIo) :
    task.Reaches (.reading, session) (chosen (session.currentOrPick io.now)) := by
  cases hactive : session.active with
  | none =>
      have hpick : session.currentOrPick io.now = session.pickAndPin io.now := by
        rw [Session.currentOrPick, hactive]
        rfl
      rw [hpick]
      apply Reaches.step io (.picking, session) _ (reaches_pickAndPin session io)
      simp only [advance, hactive]
  | some id =>
      apply Reaches.step io (.resolving id, session)
      · simp only [advance, hactive]
      · cases hlink : session.linkById id with
        | none =>
            have hpick : session.currentOrPick io.now = session.pickAndPin io.now := by
              simp only [Session.currentOrPick, hactive, Option.bind_some, hlink]
            rw [hpick]
            apply Reaches.step io (.picking, session) _ (reaches_pickAndPin session io)
            simp only [advance, hlink]
        | some link =>
            by_cases hhealthy : link.isHealthy io.now = true
            · have hcurrent : session.currentOrPick io.now = (some link, session) := by
                simp only [Session.currentOrPick, hactive, Option.bind_some, hlink,
                  if_pos hhealthy]
              rw [hcurrent]
              apply Reaches.single io
              simp only [advance, hlink, if_pos hhealthy]
              rfl
            · have hpick : session.currentOrPick io.now = session.pickAndPin io.now := by
                simp only [Session.currentOrPick, hactive, Option.bind_some, hlink,
                  if_neg hhealthy]
              rw [hpick]
              apply Reaches.step io (.picking, session) _ (reaches_pickAndPin session io)
              simp only [advance, hlink, if_neg hhealthy]

/-- How a send that was not disturbed ends. -/
def ended (outcome : SendOutcome) : SendStage × Session :=
  (.finished outcome.result, outcome.session)

/-- Undisturbed, what follows a failed write is `failover`. -/
theorem reaches_failover (failingId : String) (io : LinkIo) :
    task.Reaches (.failing failingId, session)
      (ended (session.failover failingId task.seq task.bytes task.msgType io)) := by
  cases hbest : session.bestExcluding failingId io.now with
  | none =>
      apply Reaches.single io
      simp only [advance, hbest, Session.failover, Session.promoteOnFailure]
      rfl
  | some nextId =>
      apply Reaches.step io (.promoting nextId, session)
      · simp only [advance, hbest]
      · let promoted := session.activate nextId .activeFailed
        have hpromoted : session.promoteOnFailure failingId io.now =
            (some (nextId, .activeFailed), promoted) := by
          simp only [Session.promoteOnFailure, hbest]
          rfl
        apply Reaches.step io (.promoted nextId, promoted) rfl
        cases hlink : promoted.linkById nextId with
        | none =>
            apply Reaches.single io
            simp only [advance, hlink, Session.failover, hpromoted]
            rfl
        | some newLink =>
            apply Reaches.step io (.relinked newLink.id, promoted)
            · simp only [advance, hlink]
            · cases hwrite : io.write newLink.id with
              | error e =>
                  apply Reaches.single io
                  simp only [advance, Session.failover, hpromoted, hlink, Session.writeLink,
                    hwrite]
                  rfl
              | ok value =>
                  apply Reaches.step io (.written, promoted.afterWrite newLink.id io)
                  · simp only [advance, Session.writeLink, hwrite]
                  · apply Reaches.single io
                    simp only [Session.failover, hpromoted, hlink, Session.writeLink, hwrite]
                    rfl

/-- Undisturbed, a packed frame is sent as `transmit` sends it. -/
theorem reaches_transmit (first retry : LinkIo) :
    task.Reaches (.reading, session)
      (ended (session.transmit task.seq task.bytes task.msgType first retry)) := by
  apply Reaches.trans (reaches_currentOrPick session first)
  rcases hpick : session.currentOrPick first.now with ⟨picked, after⟩
  cases picked with
  | none =>
      simp only [Session.transmit, hpick]
      exact .refl _
  | some primary =>
      cases hwrite : first.write primary.id with
      | error e =>
          apply Reaches.step first (.failing primary.id, after.afterWrite primary.id first)
          · simp only [chosen, advance, Session.writeLink, hwrite]
          · have hfailed : task.Reaches _ _ :=
              reaches_failover (after.afterWrite primary.id first) primary.id retry
            simp only [Session.transmit, hpick, Session.writeLink, hwrite]
            exact hfailed
      | ok value =>
          apply Reaches.step first (.written, after.afterWrite primary.id first)
          · simp only [chosen, advance, Session.writeLink, hwrite]
          · apply Reaches.single first
            simp only [Session.transmit, hpick, Session.writeLink, hwrite]
            rfl

end SendTask

/-- A session, the sends on it, and a record of what has happened: how many numbers
were handed out, whose number each entry of the ring has, and the logical values of
the cumulative numbers handled. -/
structure SharedSession where
  session : Session
  tasks : List SendTask
  sent : Nat
  held : List Nat
  acked : List Int

/-- One step of a run. Between the steps of the sends links come and go. -/
inductive SendStep
  | call (primitives : Primitives) (msgType : MessageType) (payload : Bytes)
      (encryptKey : Option Bytes) (compress : Bool)
  | advance (index : Nat) (io : LinkIo)
  | onAck (ack : AckFrame)
  | relink (links : List Link) (active : Option String) (events : List SessionEvent)

namespace SharedSession

/-- A session that has sent nothing. -/
def start (session : Session) : SharedSession where
  session := { session with sendSeq := .new, unacked := .new }
  tasks := []
  sent := 0
  held := []
  acked := []

variable (shared : SharedSession)

/-- The call of a send: it takes its number and packs its frame before it first
waits. A frame that cannot be packed ends it, with the number spent. -/
def called (primitives : Primitives) (msgType : MessageType) (payload : Bytes)
    (encryptKey : Option Bytes) (compress : Bool) : SendTask :=
  let seq := shared.session.sendSeq.next.1
  match packFrame primitives msgType payload encryptKey compress seq.toUInt16 with
  | .error e => ⟨shared.sent, seq, [], msgType, .finished (.error e)⟩
  | .ok bytes => ⟨shared.sent, seq, bytes, msgType, .reading⟩

/-- The numbers that stay when one more entry is to come. -/
def makeRoom (held : List Nat) : List Nat :=
  if UNACKED_RING_CAP ≤ held.length then held.tail else held

/-- The state after a step. -/
def after (shared : SharedSession) : SendStep → SharedSession
  | .call primitives msgType payload encryptKey compress =>
      { shared with
        session := shared.session.spendSeq
        tasks := shared.tasks ++ [shared.called primitives msgType payload encryptKey compress]
        sent := shared.sent + 1 }
  | .advance index io =>
      match shared.tasks[index]? with
      | none => shared
      | some task =>
          let (stage, session) := task.advance shared.session io
          { shared with
            session
            tasks := shared.tasks.set index { task with stage }
            held := if task.records then makeRoom shared.held ++ [task.number]
              else shared.held }
  | .onAck ack =>
      { shared with
        session := shared.session.onAck ack
        held := shared.held.filter fun number => !ack.covers (UInt32.ofNat number)
        acked := shared.acked ++ [Serial.nearest shared.sent ack.ack] }
  | .relink links active events =>
      { shared with session := { shared.session with links, active, events } }

/-- A cumulative number covers what is at or below it, up to half a turn back. -/
def Covers (ack : Int) (number : Nat) : Prop := number ≤ ack ∧ ack < number + 2 ^ 31

instance (ack : Int) (number : Nat) : Decidable (Covers ack number) :=
  inferInstanceAs (Decidable (_ ∧ _))

/-! ## What the ring owes -/

/-- The ring holds nothing that a handled acknowledgement has covered, and its
entries are in increasing order. -/
structure Tidy (shared : SharedSession) : Prop where
  numbers : shared.session.unacked.buf.map Prod.fst = shared.held.map UInt32.ofNat
  uncovered : ∀ number ∈ shared.held, ∀ ack ∈ shared.acked, ¬Covers ack number
  ordered : (shared.session.unacked.buf.map Prod.fst).Pairwise fun earlier later =>
    Serial.Follows later earlier

/-- A send that enters the ring was not overtaken: no acknowledgement handled
meanwhile covers its number, and the entries it comes behind have smaller ones. -/
def NotOvertaken (shared : SharedSession) : SendStep → Prop
  | .advance index _ => ∀ task ∈ shared.tasks[index]?, task.records = true →
      (∀ ack ∈ shared.acked, ¬Covers ack task.number) ∧
        ∀ number ∈ makeRoom shared.held, Serial.Follows task.seq (UInt32.ofNat number)
  | _ => True

/-- The wire numbers are the logical ones. -/
structure Counts (shared : SharedSession) : Prop where
  counter : shared.session.sendSeq.nextSeq = UInt32.ofNat shared.sent
  seqs : ∀ task ∈ shared.tasks, task.seq = UInt32.ofNat task.number

theorem counts_start (session : Session) : (start session).Counts where
  counter := rfl
  seqs := by simp [start]

theorem tidy_start (session : Session) : (start session).Tidy where
  numbers := rfl
  uncovered := by simp [start]
  ordered := .nil

variable {shared : SharedSession}

theorem counts_after (counts : shared.Counts) (step : SendStep) : (shared.after step).Counts := by
  cases step with
  | call primitives msgType payload encryptKey compress =>
      constructor
      · show shared.session.sendSeq.nextSeq + 1 = UInt32.ofNat (shared.sent + 1)
        rw [counts.counter, Serial.ofNat_succ]
      · intro task htask
        rcases List.mem_append.mp htask with hold | hnew
        · exact counts.seqs task hold
        · rw [List.mem_singleton.mp hnew, called]
          split <;> exact counts.counter
  | advance index io =>
      rw [after]
      split
      · exact counts
      · rename_i task hfound
        constructor
        · show (task.advance shared.session io).2.sendSeq.nextSeq = _
          rw [SendTask.advance_sendSeq]
          exact counts.counter
        · intro other hother
          rcases List.mem_or_eq_of_mem_set hother with hold | rfl
          · exact counts.seqs other hold
          · exact counts.seqs task (List.mem_of_getElem? hfound)
  | onAck ack => exact ⟨counts.counter, counts.seqs⟩
  | relink links active events => exact ⟨counts.counter, counts.seqs⟩

/-- What a send enters into the ring comes last, behind what there is room for. -/
theorem map_fst_recordUnacked (numbers : shared.session.unacked.buf.map Prod.fst =
      shared.held.map UInt32.ofNat) (task : SendTask) :
    (shared.session.recordUnacked task.seq task.bytes task.msgType).unacked.buf.map Prod.fst =
      (makeRoom shared.held).map UInt32.ofNat ++ [task.seq] := by
  have hlength : shared.session.unacked.buf.length = shared.held.length := by
    simpa using congrArg List.length numbers
  rw [Session.recordUnacked, UnackedRing.push_buf, hlength, makeRoom, List.map_append]
  split_ifs
  · rw [List.map_tail, numbers, List.map_tail]
    rfl
  · rw [numbers]
    rfl

/-- What stays when room is made is a sublist of what was held. -/
theorem makeRoom_sublist (held : List Nat) : (makeRoom held).Sublist held := by
  rw [makeRoom]
  split_ifs
  · exact List.tail_sublist held
  · exact List.Sublist.refl held

/-- Entering the ring keeps it tidy exactly when the send was not overtaken. -/
theorem tidy_record_iff (counts : shared.Counts) (tidy : shared.Tidy) {index : Nat}
    {task : SendTask} (hfound : shared.tasks[index]? = some task)
    (hrecords : task.records = true) (io : LinkIo) :
    (shared.after (.advance index io)).Tidy ↔
      (∀ ack ∈ shared.acked, ¬Covers ack task.number) ∧
        ∀ number ∈ makeRoom shared.held, Serial.Follows task.seq (UInt32.ofNat number) := by
  have hseq := counts.seqs task (List.mem_of_getElem? hfound)
  have hring : (shared.after (.advance index io)).session.unacked.buf.map Prod.fst =
      (makeRoom shared.held).map UInt32.ofNat ++ [task.seq] := by
    rw [after, hfound]
    show (task.advance shared.session io).2.unacked.buf.map Prod.fst = _
    rw [SendTask.advance_of_records _ _ _ hrecords]
    exact map_fst_recordUnacked tidy.numbers task
  have hheld : (shared.after (.advance index io)).held =
      makeRoom shared.held ++ [task.number] := by
    rw [after, hfound]
    exact if_pos hrecords
  have hacked : (shared.after (.advance index io)).acked = shared.acked := by
    rw [after, hfound]
  have hroom := makeRoom_sublist shared.held
  constructor
  · intro htidy
    constructor
    · have huncovered := htidy.uncovered task.number (by simp [hheld])
      rwa [hacked] at huncovered
    · intro number hnumber
      have hordered := htidy.ordered
      rw [hring, List.pairwise_append] at hordered
      exact hordered.2.2 _ (List.mem_map_of_mem hnumber) _ (List.mem_singleton_self _)
  · rintro ⟨huncovered, hfollows⟩
    refine ⟨?_, ?_, ?_⟩
    · rw [hring, hheld, List.map_append, hseq]
      rfl
    · intro number hnumber
      rw [hheld] at hnumber
      rw [hacked]
      rcases List.mem_append.mp hnumber with hold | hnew
      · exact tidy.uncovered number (hroom.subset hold)
      · rw [List.mem_singleton.mp hnew]
        exact huncovered
    · rw [hring, List.pairwise_append]
      refine ⟨?_, List.pairwise_singleton _ _, ?_⟩
      · have hordered := tidy.ordered
        rw [tidy.numbers] at hordered
        exact hordered.sublist (hroom.map _)
      · intro earlier hearlier later hlater
        obtain ⟨number, hnumber, rfl⟩ := List.mem_map.mp hearlier
        rw [List.mem_singleton.mp hlater]
        exact hfollows number hnumber

/-- The handling of an acknowledgement removes all that it covers. -/
theorem tidy_onAck (tidy : shared.Tidy) (ack : AckFrame) : (shared.after (.onAck ack)).Tidy where
  numbers := by
    show (shared.session.onAck ack).unacked.buf.map Prod.fst =
      (shared.held.filter fun number => !ack.covers (UInt32.ofNat number)).map UInt32.ofNat
    have hleft : (shared.session.onAck ack).unacked.buf.map Prod.fst =
        (shared.session.unacked.buf.map Prod.fst).filter fun seq => !ack.covers seq := by
      rw [Session.onAck, AckFrame.buf_ackCum_sack, List.filter_map]
      rfl
    rw [hleft, tidy.numbers, List.filter_map]
    rfl
  uncovered := by
    intro number hnumber other hother
    obtain ⟨hheld, hkept⟩ := List.mem_filter.mp hnumber
    rcases List.mem_append.mp hother with hold | hnew
    · exact tidy.uncovered number hheld other hold
    · intro hcovers
      rw [List.mem_singleton.mp hnew] at hcovers
      have hgeq : seqGeq ack.ack (UInt32.ofNat number) = true :=
        decide_eq_true (Serial.distance_lt_half_of_nearest hcovers.1 hcovers.2)
      simp [AckFrame.covers, hgeq] at hkept
  ordered := by
    rw [after, Session.onAck, AckFrame.buf_ackCum_sack]
    exact tidy.ordered.sublist (List.filter_sublist.map _)

/-- One step: the ring stays tidy exactly when no send that enters it was overtaken. -/
theorem tidy_after_iff (counts : shared.Counts) (tidy : shared.Tidy) (step : SendStep) :
    (shared.after step).Tidy ↔ shared.NotOvertaken step := by
  cases step with
  | call primitives msgType payload encryptKey compress =>
      exact iff_of_true ⟨tidy.numbers, tidy.uncovered, tidy.ordered⟩ trivial
  | advance index io =>
      cases hfound : shared.tasks[index]? with
      | none =>
          have hsame : shared.after (.advance index io) = shared := by rw [after, hfound]
          rw [hsame]
          exact iff_of_true tidy (by simp [NotOvertaken, hfound])
      | some task =>
          cases hrecords : task.records with
          | true =>
              rw [tidy_record_iff counts tidy hfound hrecords io]
              simp [NotOvertaken, hfound, hrecords]
          | false =>
              apply iff_of_true
              · have hring : (shared.after (.advance index io)).session.unacked =
                    shared.session.unacked := by
                  rw [after, hfound]
                  exact (task.advance_keeps shared.session io hrecords).1
                have hheld : (shared.after (.advance index io)).held = shared.held := by
                  rw [after, hfound]
                  simp [hrecords]
                have hacked : (shared.after (.advance index io)).acked = shared.acked := by
                  rw [after, hfound]
                refine ⟨by rw [hring, hheld, tidy.numbers], ?_, by rw [hring]; exact tidy.ordered⟩
                rw [hheld, hacked]
                exact tidy.uncovered
              · simp [NotOvertaken, hfound, hrecords]
  | onAck ack => exact iff_of_true (tidy_onAck tidy ack) trivial
  | relink links active events =>
      exact iff_of_true ⟨tidy.numbers, tidy.uncovered, tidy.ordered⟩ trivial

/-! ## A send that nobody disturbs -/

/-- Steps of the newest send are steps of its task. -/
theorem foldl_advance (shared : SharedSession) (earlier : List SendTask) (task : SendTask)
    (ios : List LinkIo) (hlast : shared.tasks = earlier ++ [task]) :
    ((ios.map (.advance earlier.length)).foldl after shared).session =
        (task.steps shared.session ios).2 ∧
      ((ios.map (.advance earlier.length)).foldl after shared).tasks =
        earlier ++ [{ task with stage := (task.steps shared.session ios).1 }] := by
  induction ios generalizing shared task with
  | nil => exact ⟨rfl, hlast⟩
  | cons io rest ih =>
      have hfound : shared.tasks[earlier.length]? = some task := by simp [hlast]
      have htasks : (shared.after (.advance earlier.length io)).tasks =
          earlier ++ [{ task with stage := (task.advance shared.session io).1 }] := by
        rw [after, hfound]
        show shared.tasks.set _ _ = _
        rw [hlast, List.set_append_right _ _ (Nat.le_refl _)]
        simp
      have hsession : (shared.after (.advance earlier.length io)).session =
          (task.advance shared.session io).2 := by
        rw [after, hfound]
      have hrest := ih _ _ htasks
      rw [hsession] at hrest
      exact hrest

/-- A send whose steps follow one another is `Session.send`. -/
theorem exists_steps_of_send (primitives : Primitives) (msgType : MessageType)
    (payload : Bytes) (encryptKey : Option Bytes) (compress : Bool) (first retry : LinkIo) :
    let outcome :=
      shared.session.send primitives msgType payload encryptKey compress first retry
    ∃ ios : List LinkIo, ∃ task : SendTask,
      let run := (SendStep.call primitives msgType payload encryptKey compress ::
        ios.map (.advance shared.tasks.length)).foldl after shared
      run.session = outcome.session ∧ run.tasks = shared.tasks ++ [task] ∧
        task.stage = .finished outcome.result := by
  let called := shared.called primitives msgType payload encryptKey compress
  have halone := foldl_advance
    (shared.after (.call primitives msgType payload encryptKey compress)) shared.tasks called
  cases hpack : packFrame primitives msgType payload encryptKey compress
      shared.session.sendSeq.next.1.toUInt16 with
  | error e =>
      obtain ⟨hsession, htasks⟩ := halone [] rfl
      refine ⟨[], called, ?_, htasks, ?_⟩
      · simp only [Session.send, hpack]
        exact hsession
      · simp only [Session.send, hpack, called, SharedSession.called]
  | ok bytes =>
      let fresh : SendTask :=
        ⟨shared.sent, shared.session.sendSeq.next.1, bytes, msgType, .reading⟩
      have hcalled : called = fresh := by simp only [called, SharedSession.called, hpack, fresh]
      have hreaches : fresh.Reaches _ _ :=
        SendTask.reaches_transmit shared.session.spendSeq first retry
      obtain ⟨ios, hsteps⟩ := hreaches
      obtain ⟨hsession, htasks⟩ := halone ios rfl
      rw [hcalled] at hsession htasks
      refine ⟨ios, _, ?_, htasks, ?_⟩
      · simp only [Session.send, hpack]
        rw [List.foldl_cons, hsession]
        exact congrArg Prod.snd hsteps
      · simp only [Session.send, hpack]
        exact congrArg Prod.fst hsteps

/-! ## Runs -/

/-- In a run of sends and acknowledgements the ring is tidy throughout exactly when
no send enters it after its acknowledgement or before a smaller number that is still
to come. -/
theorem tidy_iff_notOvertaken (session : Session) (steps : List SendStep) :
    (∀ earlier later, steps = earlier ++ later → (earlier.foldl after (start session)).Tidy) ↔
      ∀ earlier step later, steps = earlier ++ step :: later →
        (earlier.foldl after (start session)).NotOvertaken step := by
  have hcounts : ∀ earlier : List SendStep, (earlier.foldl after (start session)).Counts := by
    intro earlier
    have hkeeps : ∀ (shared : SharedSession) (step : SendStep), shared.Counts → True →
        (shared.after step).Counts := fun shared step counts _ => counts_after counts step
    exact foldl_of_guarded hkeeps (counts_start session) (fun _ _ _ _ => trivial)
  have hstep : ∀ (shared : SharedSession) (step : SendStep), shared.Counts ∧ shared.Tidy →
      ((shared.after step).Counts ∧ (shared.after step).Tidy ↔ shared.NotOvertaken step) := by
    intro shared step holds
    rw [tidy_after_iff holds.1 holds.2 step, and_iff_right (counts_after holds.1 step)]
  rw [← forall_foldl_iff_guarded hstep ⟨counts_start session, tidy_start session⟩ steps]
  constructor
  · intro htidy earlier later hsplit
    exact ⟨hcounts earlier, htidy earlier later hsplit⟩
  · intro hboth earlier later hsplit
    exact (hboth earlier later hsplit).2

/-- A session with one link, and a world in which its writes succeed. -/
def oneLink : Session :=
  { Session.new "peer" 0 with
    links := [Link.new "tcp" 0 .tcp ⟨1000000⟩ 0], active := some "tcp" }

def allWritten : LinkIo := ⟨0, fun _ => .ok ()⟩

/-- A send up to its written frame: it reads the active link, finds it and writes. -/
def upToWritten (index : Nat) : List SendStep :=
  [.call Primitives.transparent .message [7] none false, .advance index allWritten,
    .advance index allWritten, .advance index allWritten]

/-- The acknowledgement of a frame is handled before its send enters the ring. -/
def lateEntry : List SendStep := upToWritten 0 ++ [.onAck ⟨0, 0⟩, .advance 0 allWritten]

/-- Two sends enter the ring in the other order than they took their numbers. -/
def swappedEntries : List SendStep :=
  upToWritten 0 ++ upToWritten 1 ++ [.advance 1 allWritten, .advance 0 allWritten]

/-- The late entry stays although it was acknowledged; the swapped ones are out of
order. -/
theorem not_tidy_overtaken :
    ((lateEntry.foldl after (start oneLink)).session.unacked.buf.map Prod.fst = [0] ∧
        ¬(lateEntry.foldl after (start oneLink)).Tidy) ∧
      (swappedEntries.foldl after (start oneLink)).session.unacked.buf.map Prod.fst = [1, 0] ∧
        ¬(swappedEntries.foldl after (start oneLink)).Tidy := by
  have hlate : (lateEntry.foldl after (start oneLink)).held = [0] ∧
      (lateEntry.foldl after (start oneLink)).acked = [0] := by decide
  have hswapped : (swappedEntries.foldl after (start oneLink)).session.unacked.buf.map Prod.fst =
      [1, 0] := by decide
  refine ⟨⟨by decide, ?_⟩, hswapped, ?_⟩
  · intro tidy
    exact tidy.uncovered 0 (by simp [hlate]) 0 (by simp [hlate]) (by decide)
  · intro tidy
    have hordered := tidy.ordered
    rw [hswapped] at hordered
    revert hordered
    decide

end SharedSession

end Mlink.Core
