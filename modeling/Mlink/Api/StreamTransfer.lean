/-
# Streams from end to end

Whoever polls, a frame goes to one taker and is lost to all the others. A reader from which
no frame was taken away has the chunks of its own stream, the first of those sent, in order
and each once. It has all of them when it meets the end of the stream, when the connection
ends, and when it waits although the network is idle.
-/

import Mlink.Api.StreamLink

namespace Mlink.Api

open Mlink.Protocol Mlink.Core Mlink.Transport

namespace StreamLink

/-! ## The receiving side -/

section Receives

variable {codec : StartCodec} {primitives : Primitives} {senderId receiverId : String}
  {key : Option Bytes} {link after : StreamLink} {skipped : Nat} {receiving : Receiving}

/-- A step of the receiving side leaves the sending side as it is. -/
structure TakesOn (link after : StreamLink) : Prop where
  sendings : after.sendings = link.sendings
  accepted : after.channel.accepted = link.channel.accepted
  sender : after.channel.sender = link.channel.sender
  written : after.channel.stream.written = link.channel.stream.written
  shut : after.channel.stream.shut = link.channel.stream.shut
  taken : link.taken ≤ after.taken

/-- A reader that is done keeps what it has got. -/
theorem TakesOn.matched_of_over (takes : TakesOn link after) (done : receiving.ending.isSome)
    (matched : link.Matches codec receiving) : after.Matches codec receiving := by
  unfold Matches at matched ⊢
  rw [takes.sendings, takes.shut]
  cases hover : receiving.ending with
  | none =>
      rw [hover] at done
      cases done
  | some ending =>
      rw [hover] at matched
      cases ending with
      | finished => exact matched
      | closed => exact matched
      | dropped => exact matched

/-- While no frame is taken every reader keeps what it has got. -/
theorem TakesOn.matched_same (takes : TakesOn link after) (taken : after.taken = link.taken)
    (matched : link.Matches codec receiving) : after.Matches codec receiving := by
  unfold Matches Latest at matched ⊢
  rw [takes.sendings, takes.shut, takes.accepted, taken]
  exact matched

/-- A reader from which a frame is taken away does not count any more, unless it is done. -/
theorem TakesOn.matched_passedOver (takes : TakesOn link after)
    (matched : receiving.alone = true → link.Matches codec receiving)
    (alone : receiving.passedOver.alone = true) : after.Matches codec receiving.passedOver := by
  rw [Receiving.passedOver] at alone ⊢
  split_ifs at alone ⊢ with hover
  · exact takes.matched_of_over hover (matched alone)

/-- Beside the readers a step of the receiving side changes nothing. -/
theorem Transfers.takesOn
    (transfers : link.Transfers codec primitives senderId receiverId key skipped)
    (takes : TakesOn link after) (lossless : after.channel.stream.Lossless)
    (skips : skipped ≤ after.channel.stream.returned.length)
    (opens : after.channel.receiver.OpensWith senderId key)
    (connected : (after.channel.receiver.connections.lookup senderId).isSome)
    (counted : after.taken = after.channel.taken skipped)
    (matched : ∀ receiving ∈ after.receivings, receiving.alone = true →
      after.Matches codec receiving)
    (counts : ∀ receiving ∈ after.receivings, receiving.Counts) :
    after.Transfers codec primitives senderId receiverId key skipped := by
  refine ⟨⟨lossless, skips, ?_, ?_⟩, opens, connected, counted, ?_, ?_, ?_, ?_, matched, counts⟩
  · rw [takes.written, takes.accepted]
    exact transfers.carried.packed
  · rw [takes.sender]
    exact transfers.carried.seals
  · rw [takes.sendings, takes.accepted]
    exact transfers.sane
  · unfold Latest
    rw [takes.sendings, takes.accepted]
    exact transfers.tells
  · rw [takes.sendings]
    intro index place earlier later hlt hearlier hlater hsame
    obtain ⟨stop, hstop, hle⟩ := transfers.settled index place earlier later hlt hearlier hlater
      hsame
    exact ⟨stop, hstop, hle.trans takes.taken⟩
  · unfold Announces
    rw [takes.sendings, takes.accepted]
    exact transfers.announced

/-- The application that takes the start of a stream opens a reader for it. -/
theorem Transfers.matched_start
    (transfers : link.Transfers codec primitives senderId receiverId key skipped)
    (takes : TakesOn link after) (taken : after.taken = link.taken + 1) {payload : Bytes}
    (hframe : link.channel.accepted[link.taken]? = some (.streamStart, payload))
    {info : StreamInfo} (hinfo : codec.decodeInfo payload = .ok info) :
    after.Matches codec ⟨.new senderId info, link.taken + 1, [], none, true⟩ := by
  obtain ⟨index, sending, found, hsending, hstart, hfound, hid, htotal⟩ :=
    transfers.announced link.taken payload hframe
  rw [hinfo] at hfound
  cases hfound
  have hsame : link.taken + 1 = sending.start := hstart.symm
  show ∃ _, _
  refine ⟨index, sending, ?_, ?_, ⟨hid, htotal⟩, hsame, taken.ge, ?_⟩
  · rw [takes.sendings]
    exact hsending
  · -- a later stream of this id would have waited for this one's frames to be taken
    intro place other hplace hother hequal
    rw [takes.sendings] at hother
    obtain ⟨stop, hstop, hle⟩ := transfers.settled index place sending other hplace hsending
      hother hequal.symm
    have hsane := (transfers.sane sending (List.mem_of_getElem? hsending)).stopped stop hstop
    omega
  · rw [taken, takes.accepted, List.drop_of_length_le (List.length_take_le _ _)]
    rfl

/-- A reader that took every frame goes on to the next. -/
theorem Transfers.matched_take
    (transfers : link.Transfers codec primitives senderId receiverId key skipped)
    (takes : TakesOn link after) (taken : after.taken = link.taken + 1)
    {message : MessageType × Bytes}
    (htake : link.channel.accepted.take (link.taken + 1) =
      link.channel.accepted.take link.taken ++ [message])
    (open_ : receiving.ending = none) (awake : receiving.reader.done = false)
    (matched : link.Matches codec receiving) :
    after.Matches codec (receiving.take codec.toStreamCodec (.ok message)) := by
  unfold Matches at matched
  rw [open_] at matched
  obtain ⟨index, sending, hsending, hlatest, hreads, hstart, hle, htold⟩ := matched
  have hshort : link.taken ≤ link.channel.accepted.length :=
    transfers.counted.trans_le transfers.carried.taken_le
  have hsplit : (link.channel.accepted.take (link.taken + 1)).drop receiving.start =
      (link.channel.accepted.take link.taken).drop receiving.start ++ [message] := by
    rw [htake, List.drop_append_of_le_length]
    rw [List.length_take_of_le hshort]
    exact hle
  have hlatestAfter : after.Latest index sending.writer.streamId := by
    unfold Latest
    rw [takes.sendings]
    exact hlatest
  have hfound : after.sendings[index]? = some sending := by
    rw [takes.sendings]
    exact hsending
  have hmore : receiving.start ≤ after.taken := hle.trans takes.taken
  rw [Receiving.take_of_heed awake]
  cases hheed : heed codec.toStreamCodec receiving.reader.streamId message.1 message.2 with
  | pass =>
      unfold Matches
      dsimp only
      rw [open_]
      refine ⟨index, sending, hfound, hlatestAfter, hreads, hstart, hmore, ?_⟩
      rw [taken, takes.accepted, hsplit, told_append_of_pass]
      · exact htold
      · intro frame hframe
        rw [List.mem_singleton.mp hframe]
        exact hheed
  | chunk data =>
      unfold Matches
      dsimp only
      rw [open_]
      refine ⟨index, sending, hfound, hlatestAfter, ⟨hreads.streamId, hreads.totalChunks⟩, hstart,
        hmore, ?_⟩
      rw [taken, takes.accepted, hsplit, told_append (by rw [htold]), htold]
      simp only [told, hheed]
  | finish =>
      have hends : told codec.toStreamCodec receiving.reader.streamId
          ((link.channel.accepted.take (link.taken + 1)).drop receiving.start) =
            (receiving.chunks, true) := by
        rw [hsplit, told_append (by rw [htold]), htold]
        simp only [told, hheed, List.append_nil]
      have hsent := transfers.tells index sending hsending hlatest
      rw [← hstart, ← hreads.streamId, drop_eq_append (Nat.le_succ_of_le hle),
        told_append_of_ended (by rw [hends]), hends] at hsent
      obtain ⟨hchunks, hended⟩ := Prod.ext_iff.mp hsent
      unfold Matches
      exact ⟨sending, List.mem_of_getElem? hfound, ⟨hreads.streamId, hreads.totalChunks⟩,
        hended.symm, hchunks⟩

/-- What a reader that reads on has got are the first chunks of its stream, and all of them
once every frame has been taken. -/
theorem Transfers.reads_on
    (transfers : link.Transfers codec primitives senderId receiverId key skipped)
    (open_ : receiving.ending = none) (matched : link.Matches codec receiving) :
    ∃ sending ∈ link.sendings, receiving.Reads sending ∧ receiving.chunks <+: sending.sent ∧
      (link.channel.accepted.length ≤ link.taken →
        receiving.chunks = sending.sent ∧ sending.ended = false) := by
  unfold Matches at matched
  rw [open_] at matched
  obtain ⟨index, sending, hsending, hlatest, hreads, hstart, hle, htold⟩ := matched
  have hsent := transfers.tells index sending hsending hlatest
  rw [← hstart, ← hreads.streamId] at hsent
  refine ⟨sending, List.mem_of_getElem? hsending, hreads, ?_, ?_⟩
  · have hprefix : (told codec.toStreamCodec receiving.reader.streamId
        ((link.channel.accepted.take link.taken).drop receiving.start)).1 <+:
          (told codec.toStreamCodec receiving.reader.streamId
            (link.channel.accepted.drop receiving.start)).1 := by
      have hsplit : link.channel.accepted.drop receiving.start = _ := drop_eq_append hle
      rw [hsplit]
      exact told_prefix
    rw [htold, hsent] at hprefix
    exact hprefix
  · intro hall
    rw [List.take_of_length_le hall, hsent] at htold
    obtain ⟨hchunks, hended⟩ := Prod.ext_iff.mp htold
    exact ⟨hchunks.symm, hended⟩

/-- What is read is handed to the one who took it, and lost to the others. -/
theorem Transfers.hears
    (transfers : link.Transfers codec primitives senderId receiverId key skipped)
    (takes : TakesOn link after) (taken : after.taken = link.taken + 1)
    {message : MessageType × Bytes}
    (htake : link.channel.accepted.take (link.taken + 1) =
      link.channel.accepted.take link.taken ++ [message])
    {who : Taker} (may : link.mayTake who = true) :
    ∀ receiving ∈ link.hear codec senderId who (.ok message),
      (receiving.alone = true → after.Matches codec receiving) ∧ receiving.Counts := by
  have hothers : ∀ receiving ∈ link.receivings,
      (receiving.passedOver.alone = true → after.Matches codec receiving.passedOver) ∧
        receiving.passedOver.Counts := by
    intro receiving hreceiving
    exact ⟨takes.matched_passedOver (transfers.matched receiving hreceiving),
      (transfers.counts receiving hreceiving).passedOver⟩
  have hframe : link.channel.accepted[link.taken]? = some message := by
    rw [List.take_add_one, List.append_cancel_left_eq] at htake
    cases hfound : link.channel.accepted[link.taken]? with
    | none =>
        rw [hfound] at htake
        cases htake
    | some found =>
        rw [hfound] at htake
        cases htake
        rfl
  intro receiving hreceiving
  cases who with
  | app =>
      obtain ⟨msgType, payload⟩ := message
      unfold hear at hreceiving
      dsimp only at hreceiving
      split at hreceiving
      · rename_i info hkind hinfo
        cases hkind
        rcases List.mem_append.mp hreceiving with hold | hnew
        · obtain ⟨before, hbefore, rfl⟩ := List.mem_map.mp hold
          exact hothers before hbefore
        · cases List.mem_singleton.mp hnew
          exact ⟨fun _ => transfers.matched_start takes taken hframe hinfo, rfl, fun _ => rfl⟩
      · obtain ⟨before, hbefore, rfl⟩ := List.mem_map.mp hreceiving
        exact hothers before hbefore
  | reader index =>
      unfold hear at hreceiving
      dsimp only at hreceiving
      obtain ⟨place, hplace, rfl⟩ := List.mem_mapIdx.mp hreceiving
      have hmem : link.receivings[place] ∈ link.receivings := List.getElem_mem hplace
      split_ifs with hindex
      · have hopen : link.receivings[place].ending = none := by
          subst hindex
          have htakes : (link.receivings[place]?).any (fun receiving => receiving.ending.isNone) =
              true := may
          rw [List.getElem?_eq_getElem hplace] at htakes
          exact Option.isNone_iff_eq_none.mp htakes
        have hcounts := transfers.counts _ hmem
        refine ⟨fun halone => ?_, hcounts.take hopen _⟩
        apply transfers.matched_take takes taken htake hopen (hcounts.awake hopen)
        apply transfers.matched _ hmem
        rw [Receiving.take_of_heed (hcounts.awake hopen)] at halone
        split at halone <;> exact halone
      · exact hothers _ hmem

/-- When the connection has ended a reader that took every frame has all chunks. -/
theorem Transfers.matched_closed
    (transfers : link.Transfers codec primitives senderId receiverId key skipped)
    (takes : TakesOn link after) (all : link.channel.accepted.length ≤ link.taken)
    (shut : link.channel.stream.shut = true) (open_ : receiving.ending = none)
    (awake : receiving.reader.done = false) (matched : link.Matches codec receiving)
    (e : MlinkError) :
    after.Matches codec (receiving.take codec.toStreamCodec (.error e)) := by
  obtain ⟨sending, hsending, hreads, _, hall⟩ := transfers.reads_on open_ matched
  rw [Receiving.take_of_error awake]
  unfold Matches
  refine ⟨sending, ?_, ⟨hreads.streamId, hreads.totalChunks⟩, takes.shut.trans shut, (hall all).1⟩
  rw [takes.sendings]
  exact hsending

/-- The end of the connection is handed to the one who met it. -/
theorem Transfers.hears_end
    (transfers : link.Transfers codec primitives senderId receiverId key skipped)
    (takes : TakesOn link after) (taken : after.taken = link.taken)
    (all : link.channel.accepted.length ≤ link.taken)
    (shut : link.channel.stream.shut = true) {who : Taker} (may : link.mayTake who = true)
    (e : MlinkError) :
    ∀ receiving ∈ link.hear codec senderId who (.error e),
      (receiving.alone = true → after.Matches codec receiving) ∧ receiving.Counts := by
  have hsame : ∀ receiving ∈ link.receivings,
      (receiving.alone = true → after.Matches codec receiving) ∧ receiving.Counts := by
    intro receiving hreceiving
    exact ⟨fun halone => takes.matched_same taken (transfers.matched receiving hreceiving halone),
      transfers.counts receiving hreceiving⟩
  intro receiving hreceiving
  cases who with
  | app => exact hsame receiving hreceiving
  | reader index =>
      obtain ⟨place, hplace⟩ := List.mem_iff_getElem?.mp hreceiving
      obtain ⟨before, hbefore, rfl⟩ := Entries.getElem?_modify_eq_some hplace
      have hmem := List.mem_of_getElem? hbefore
      split_ifs with hindex
      · have hopen : before.ending = none := by
          subst hindex
          have htakes : (link.receivings[index]?).any (fun receiving => receiving.ending.isNone) =
              true := may
          rw [hbefore] at htakes
          exact Option.isNone_iff_eq_none.mp htakes
        have hcounts := transfers.counts before hmem
        refine ⟨fun halone => ?_, hcounts.take hopen _⟩
        apply transfers.matched_closed takes all shut hopen (hcounts.awake hopen)
        apply transfers.matched before hmem
        rw [Receiving.take_of_error (hcounts.awake hopen)] at halone
        exact halone
      · exact hsame before hmem

/-- Whoever polls, the readers have what is theirs. -/
theorem Transfers.poll (lawful : primitives.Lawful)
    (transfers : link.Transfers codec primitives senderId receiverId key skipped) (who : Taker)
    (now : Instant) :
    (link.poll codec primitives senderId who now).Transfers codec primitives senderId receiverId
      key skipped := by
  unfold StreamLink.poll
  split_ifs with hmay
  · obtain ⟨hmay, _⟩ := hmay
    have hlossless := StreamConnection.read_lossless transfers.carried.lossless
    have hkept := StreamConnection.written_read link.channel.stream
    have hcases := StreamConnection.read_cases transfers.carried.lossless
    have hskips := transfers.carried.skips
    have hcounted := transfers.counted
    rcases hread : link.channel.stream.read with ⟨polled, stream⟩
    rw [hread] at hlossless hkept hcases
    obtain ⟨hwritten, hshut⟩ := hkept
    rcases hcases with ⟨bytes, later, hunread, hready, hreturned⟩ |
      ⟨hpending, hreturned, _⟩ | ⟨hended, hunread, hclosed, hreturned⟩
    · cases hready
      obtain ⟨message, hpacks, htake⟩ := transfers.carried.next hunread
      obtain ⟨frame, receiver, hrecv, hkind, hopens, hconnections⟩ :=
        transfers.opens.recvRaw lawful transfers.connected hpacks now
      rw [← hcounted] at htake
      simp only [hrecv, Except.map, hkind]
      have takes : TakesOn link { link with
          channel := { link.channel with stream := stream, receiver := receiver }
          receivings := link.hear codec senderId who (.ok message)
          holder := none
          taken := link.taken + 1 } :=
        ⟨rfl, rfl, rfl, hwritten, hshut, Nat.le_succ _⟩
      have hheard := transfers.hears takes rfl htake hmay
      have hlength : stream.returned.length = link.channel.stream.returned.length + 1 := by
        rw [hreturned, List.length_append, List.length_singleton]
      apply transfers.takesOn takes hlossless
      · show skipped ≤ stream.returned.length
        omega
      · exact hopens
      · show (receiver.connections.lookup senderId).isSome
        rw [hconnections]
        exact transfers.connected
      · show link.taken + 1 = stream.returned.length - skipped
        rw [Channel.taken] at hcounted
        omega
      · exact fun receiving hreceiving => (hheard receiving hreceiving).1
      · exact fun receiving hreceiving => (hheard receiving hreceiving).2
    · cases hpending
      have takes : TakesOn link { link with
          channel := { link.channel with stream := stream }
          holder := some who } :=
        ⟨rfl, rfl, rfl, hwritten, hshut, Nat.le_refl _⟩
      apply transfers.takesOn takes hlossless
      · show skipped ≤ stream.returned.length
        rw [hreturned]
        exact hskips
      · exact transfers.opens
      · exact transfers.connected
      · show link.taken = stream.returned.length - skipped
        rw [hreturned, hcounted, Channel.taken]
      · intro receiving hreceiving halone
        exact takes.matched_same rfl (transfers.matched receiving hreceiving halone)
      · exact transfers.counts
    · cases hended
      obtain ⟨conn, hconn⟩ := Option.isSome_iff_exists.mp transfers.connected
      have hrecv : link.channel.receiver.recvRaw primitives senderId (.error (.io "early eof"))
          now = (.error (.io "early eof"), link.channel.receiver) := by
        simp only [Node.recvRaw, hconn, Except.bind]
      have takes : TakesOn link { link with
          channel := { link.channel with stream := stream }
          receivings := link.hear codec senderId who (.error (.io "early eof"))
          holder := none } :=
        ⟨rfl, rfl, rfl, hwritten, hshut, Nat.le_refl _⟩
      have hall : link.channel.accepted.length ≤ link.taken := by
        rw [hcounted]
        exact List.drop_eq_nil_iff.mp (transfers.carried.settled hunread)
      have hheard := transfers.hears_end takes rfl hall hclosed hmay (.io "early eof")
      simp only [hrecv, Except.map]
      apply transfers.takesOn takes hlossless
      · show skipped ≤ stream.returned.length
        rw [hreturned]
        exact hskips
      · exact transfers.opens
      · exact transfers.connected
      · show link.taken = stream.returned.length - skipped
        rw [hreturned, hcounted, Channel.taken]
      · exact fun receiving hreceiving => (hheard receiving hreceiving).1
      · exact fun receiving hreceiving => (hheard receiving hreceiving).2
  · exact transfers

/-- A reader that is dropped keeps the chunks it has. -/
theorem Transfers.dropReader
    (transfers : link.Transfers codec primitives senderId receiverId key skipped) (index : Nat) :
    { link with
      receivings := link.receivings.modify index Receiving.drop }.Transfers codec primitives
        senderId receiverId key skipped := by
  have takes : TakesOn link { link with
      receivings := link.receivings.modify index Receiving.drop } :=
    ⟨rfl, rfl, rfl, rfl, rfl, Nat.le_refl _⟩
  have hdropped : ∀ receiving ∈ link.receivings.modify index Receiving.drop,
      (receiving.alone = true → link.Matches codec receiving) ∧ receiving.Counts := by
    apply Entries.forall_mem_modify
    · intro receiving hreceiving
      exact ⟨transfers.matched receiving hreceiving, transfers.counts receiving hreceiving⟩
    · rintro receiving ⟨hmatched, hcounts⟩
      unfold Receiving.drop
      split_ifs with hover
      · exact ⟨hmatched, hcounts⟩
      · have hopen : receiving.ending = none := Option.not_isSome_iff_eq_none.mp hover
        refine ⟨fun halone => ?_, hcounts.received, fun hover => by cases hover⟩
        obtain ⟨sending, hsending, hreads, hprefix, _⟩ :=
          transfers.reads_on hopen (hmatched halone)
        exact ⟨sending, hsending, ⟨hreads.streamId, hreads.totalChunks⟩, hprefix⟩
  apply transfers.takesOn takes transfers.carried.lossless transfers.carried.skips
    transfers.opens transfers.connected transfers.counted
  · intro receiving hreceiving halone
    exact takes.matched_same rfl ((hdropped receiving hreceiving).1 halone)
  · exact fun receiving hreceiving => (hdropped receiving hreceiving).2

end Receives

/-! ## Whole runs -/

section Runs

variable (codec : StartCodec) (primitives : Primitives) (senderId receiverId : String)
  (key : Option Bytes) (link : StreamLink)

/-- Before anything is sent. -/
def start (channel : Channel) (counters : StreamCounters) : StreamLink :=
  ⟨channel, counters, [], [], none, 0⟩

/-- The id that the next stream draws. -/
def nextId : UInt16 := (link.counters.nextStreamId (negotiateRole senderId receiverId)).1

/-- What other tasks of the two nodes do leaves the streams alone: frames of streams are
sent by writers and taken by those who poll here, and connection and key stay. -/
def LeavesAlone : ChannelEvent → Prop
  | .send msgType _ _ _ =>
      link.channel.sender.sessionIsMultilink receiverId = false ∧
        msgType ≠ .streamStart ∧ msgType ≠ .streamChunk ∧ msgType ≠ .streamEnd
  | .deliver _ | .close => True
  | .read _ => False
  | .senderElsewhere node => node.SealsWith receiverId key
  | .receiverElsewhere node =>
      node.OpensWith senderId key ∧ (node.connections.lookup senderId).isSome

/-- The steps of a pair that stays connected over one link. An id is drawn again, when the
counter has come round, only after its last stream is over and read; and no reader is
dropped in the middle of a frame. -/
def Undisturbed : TransferEvent → Prop
  | .create .. =>
      link.channel.sender.sessionIsMultilink receiverId = false ∧
        link.Free (link.nextId senderId receiverId)
  | .sendChunk .. | .finish .. => link.channel.sender.sessionIsMultilink receiverId = false
  | .elsewhere event => link.LeavesAlone senderId receiverId key event
  | .dropReader index => link.holder ≠ some (.reader index)
  | .write .. | .dropWriter _ | .drawElsewhere _ | .poll .. => True

def system (channel : Channel) (counters : StreamCounters) :
    Transition.System StreamLink TransferEvent where
  init link := link = start channel counters
  step source event target := target = source.step codec primitives senderId receiverId event

/-- A channel with nothing left to read, whose receiver holds the sender's key. -/
structure Ready (channel : Channel) : Prop where
  lossless : channel.stream.Lossless
  unread : channel.stream.unread = []
  accepted : channel.accepted = []
  seals : channel.sender.SealsWith receiverId key
  opens : channel.receiver.OpensWith senderId key
  connected : (channel.receiver.connections.lookup senderId).isSome

/-- What a reader has got of a stream. -/
structure Gets (receiving : Receiving) (sending : Sending) : Prop where
  reads : receiving.Reads sending
  first : receiving.chunks <+: sending.sent
  finished : receiving.ending = some .finished →
    receiving.chunks = sending.sent ∧ sending.ended = true ∧
      (sending.sound = true → receiving.chunks.flatten = sending.given)
  closed : receiving.ending = some .closed →
    receiving.chunks = sending.sent ∧ link.channel.stream.shut = true
  waiting : receiving.ending = none → link.channel.stream.inflight = [] →
    link.channel.stream.read.1 = none → receiving.chunks = sending.sent ∧ sending.ended = false

variable {codec primitives senderId receiverId key link}

theorem Ready.transfers {channel : Channel} (ready : Ready senderId receiverId key channel)
    (counters : StreamCounters) :
    (start channel counters).Transfers codec primitives senderId receiverId key
      channel.stream.returned.length where
  carried := by
    refine ⟨ready.lossless, Nat.le_refl _, ?_, ready.seals⟩
    show List.Forall₂ _ channel.stream.unread channel.accepted
    rw [ready.unread, ready.accepted]
    exact .nil
  opens := ready.opens
  connected := ready.connected
  counted := (Nat.sub_self _).symm
  sane := fun _ hsending => by cases hsending
  tells := fun _ _ hsending => by cases hsending
  settled := fun _ _ _ _ _ hearlier => by cases hearlier
  announced := by
    intro position payload hframe
    rw [start, ready.accepted] at hframe
    cases hframe
  matched := fun _ hreceiving => by cases hreceiving
  counts := fun _ hreceiving => by cases hreceiving

/-- What other tasks do changes nothing for the streams. -/
theorem Transfers.elsewhere {skipped : Nat}
    (transfers : link.Transfers codec primitives senderId receiverId key skipped)
    (event : ChannelEvent) (alone : link.LeavesAlone senderId receiverId key event) :
    { link with
      channel := link.channel.step primitives senderId receiverId event }.Transfers codec
        primitives senderId receiverId key skipped := by
  have hnothing : ∀ frame ∈ ([] : List (MessageType × Bytes)), frame.1 ≠ .streamStart := by
    intro frame hframe
    cases hframe
  have hnobody : ∀ frame ∈ ([] : List (MessageType × Bytes)), ∀ streamId,
      heed codec.toStreamCodec streamId frame.1 frame.2 = .pass := by
    intro frame hframe
    cases hframe
  cases event with
  | send msgType payload first retry =>
      obtain ⟨hsingle, hstart, hchunk, hend⟩ := alone
      obtain ⟨hcarried, hhanded⟩ :=
        handOver_cases transfers.carried hsingle msgType (.ok payload) first retry
      rcases hhanded with ⟨found, hfound, _, _, handed⟩ | ⟨_, handed⟩
      · cases hfound
        apply transfers.onChannel handed hcarried
        · intro frame hframe streamId
          rw [List.mem_singleton.mp hframe]
          exact heed_of_other_kind hchunk hend payload
        · intro frame hframe
          rw [List.mem_singleton.mp hframe]
          exact hstart
      · exact transfers.onChannel handed hcarried hnobody hnothing
  | deliver count =>
      refine transfers.onChannel
        ⟨rfl, rfl, fun hshut => hshut, (List.append_nil _).symm⟩ ?_ hnobody hnothing
      exact { transfers.carried with
        lossless := StreamConnection.deliver_lossless transfers.carried.lossless count }
  | close =>
      refine transfers.onChannel
        ⟨rfl, rfl, fun _ => rfl, (List.append_nil _).symm⟩ ?_ hnobody hnothing
      exact { transfers.carried with
        lossless := StreamConnection.close_lossless transfers.carried.lossless }
  | read io => exact alone.elim
  | senderElsewhere node =>
      refine transfers.onChannel
        ⟨rfl, rfl, fun hshut => hshut, (List.append_nil _).symm⟩ ?_ hnobody hnothing
      exact { transfers.carried with seals := alone }
  | receiverElsewhere node =>
      have takes : TakesOn link { link with
          channel := { link.channel with receiver := node } } :=
        ⟨rfl, rfl, rfl, rfl, rfl, Nat.le_refl _⟩
      apply transfers.takesOn takes transfers.carried.lossless transfers.carried.skips alone.1
        alone.2 transfers.counted
      · intro receiving hreceiving halone
        exact takes.matched_same rfl (transfers.matched receiving hreceiving halone)
      · exact transfers.counts

/-- Every step keeps the accounts. -/
theorem Transfers.step (lawful : primitives.Lawful) {skipped : Nat}
    (transfers : link.Transfers codec primitives senderId receiverId key skipped)
    (event : TransferEvent) (undisturbed : link.Undisturbed senderId receiverId key event) :
    (link.step codec primitives senderId receiverId event).Transfers codec primitives senderId
      receiverId key skipped := by
  cases event with
  | create usize data chunkSize first retry =>
      exact transfers.create undisturbed.1 undisturbed.2 usize data chunkSize first retry
  | write index data => exact transfers.write index data
  | sendChunk index first retry => exact transfers.sendChunk undisturbed index first retry
  | finish index first retry => exact transfers.finish undisturbed index first retry
  | dropWriter index => exact transfers.dropWriter index
  | drawElsewhere role =>
      exact ⟨transfers.carried, transfers.opens, transfers.connected, transfers.counted,
        transfers.sane, transfers.tells, transfers.settled, transfers.announced,
        transfers.matched, transfers.counts⟩
  | elsewhere event => exact transfers.elsewhere event undisturbed
  | poll who now => exact transfers.poll lawful who now
  | dropReader index => exact transfers.dropReader index

/-- What the accounts come to for a reader that took every frame. -/
theorem Transfers.gets {skipped : Nat}
    (transfers : link.Transfers codec primitives senderId receiverId key skipped)
    {receiving : Receiving} (hreceiving : receiving ∈ link.receivings)
    (alone : receiving.alone = true) :
    ∃ sending ∈ link.sendings, link.Gets receiving sending := by
  have hmatched := transfers.matched receiving hreceiving alone
  cases hover : receiving.ending with
  | none =>
      obtain ⟨sending, hsending, hreads, hprefix, hall⟩ := transfers.reads_on hover hmatched
      refine ⟨sending, hsending, hreads, hprefix, fun hdone => ?_, fun hdone => ?_, ?_⟩
      · rw [hover] at hdone
        cases hdone
      · rw [hover] at hdone
        cases hdone
      · intro _ hidle hpending
        apply hall
        have hunread := transfers.carried.unread_of_idle hidle hpending
        rw [transfers.counted]
        exact List.drop_eq_nil_iff.mp (transfers.carried.settled hunread)
  | some ending =>
      unfold Matches at hmatched
      rw [hover] at hmatched
      cases ending with
      | finished =>
          obtain ⟨sending, hsending, hreads, hended, hchunks⟩ := hmatched
          have hsane := transfers.sane sending hsending
          refine ⟨sending, hsending, hreads, hchunks ▸ List.prefix_refl _,
            fun _ => ⟨hchunks, hended, fun hsound => ?_⟩, fun hdone => ?_, fun hdone => ?_⟩
          · have hwhole := hsane.whole hsound
            rw [hsane.idle (hsane.closed hended), List.flatten_nil, List.append_nil] at hwhole
            rw [hchunks, hwhole]
          · rw [hover] at hdone
            cases hdone
          · rw [hover] at hdone
            cases hdone
      | closed =>
          obtain ⟨sending, hsending, hreads, hshut, hchunks⟩ := hmatched
          refine ⟨sending, hsending, hreads, hchunks ▸ List.prefix_refl _, fun hdone => ?_,
            fun _ => ⟨hchunks, hshut⟩, fun hdone => ?_⟩
          · rw [hover] at hdone
            cases hdone
          · rw [hover] at hdone
            cases hdone
      | dropped =>
          obtain ⟨sending, hsending, hreads, hprefix⟩ := hmatched
          refine ⟨sending, hsending, hreads, hprefix, fun hdone => ?_, fun hdone => ?_,
            fun hdone => ?_⟩
          · rw [hover] at hdone
            cases hdone
          · rw [hover] at hdone
            cases hdone
          · rw [hover] at hdone
            cases hdone

/-- In every run in which the two nodes stay connected over one link, whatever else goes
through the channel and in whatever order: a reader from which no frame was taken away has
the first of the chunks sent on a stream of its id, in order and each once. It has all of them
when it meets the end of the stream, and then they make up what the writer was given if no
write failed; when the connection ends; and when it waits although the network is idle. Its
progress counts what it has. -/
theorem arrives_of_reachable (lawful : primitives.Lawful) {channel : Channel}
    (ready : Ready senderId receiverId key channel) {counters : StreamCounters}
    (reached : ((system codec primitives senderId receiverId channel counters).restrict
      (Undisturbed senderId receiverId key)).Reachable link) :
    ∀ receiving ∈ link.receivings,
      receiving.reader.received.toNat = min receiving.chunks.length 4294967295 ∧
        (receiving.alone = true → ∃ sending ∈ link.sendings, link.Gets receiving sending) := by
  have transfers : link.Transfers codec primitives senderId receiverId key
      channel.stream.returned.length := by
    apply reached.invariant fun link => link.Transfers codec primitives senderId receiverId key
      channel.stream.returned.length
    · rintro _ rfl
      exact ready.transfers counters
    · rintro source event _ _ hsource ⟨rfl, hguard⟩
      exact hsource.step lawful event hguard
  intro receiving hreceiving
  exact ⟨(transfers.counts receiving hreceiving).received,
    fun halone => transfers.gets hreceiving halone⟩

end Runs

end StreamLink

/-! ## One chunk on its way -/

/-- A header as a map with its field names, where the numbers take one byte. -/
def packInfo (info : StreamInfo) : Option Bytes :=
  if info.streamId < 128 ∧ info.totalChunks < 128 ∧ info.totalSize < 128 ∧
      info.checksumAlgo = DEFAULT_CHECKSUM_ALGO then
    some (0x84 :: packName "stream_id" ++ [info.streamId.toUInt8] ++ packName "total_chunks" ++
      [info.totalChunks.toUInt8] ++ packName "total_size" ++ [info.totalSize.toUInt8] ++
      packName "checksum_algo" ++ packName DEFAULT_CHECKSUM_ALGO)
  else none

/-- Read the fields where they are written, and check that they are. -/
def unpackInfo (payload : Bytes) : Option StreamInfo := do
  let streamId ← payload[11]?
  let totalChunks ← payload[25]?
  let totalSize ← payload[37]?
  let info : StreamInfo :=
    ⟨streamId.toUInt16, totalChunks.toUInt32, totalSize.toUInt64, DEFAULT_CHECKSUM_ALGO⟩
  if packInfo info = some payload then some info else none

theorem toUInt64_toUInt8_of_lt {size : UInt64} (small : size < 128) :
    size.toUInt8.toUInt64 = size := by
  apply UInt64.toNat_inj.mp
  have hlt : size.toNat < 128 := small
  simp
  omega

theorem unpackInfo_of_packInfo {info : StreamInfo} {payload : Bytes}
    (packed : packInfo info = some payload) : unpackInfo payload = some info := by
  have hpacked := packed
  obtain ⟨streamId, totalChunks, totalSize, checksumAlgo⟩ := info
  rw [packInfo] at packed
  split_ifs at packed with hsmall
  obtain ⟨hstream, hchunks, hsize, halgo⟩ := hsmall
  cases halgo
  cases packed
  show (if packInfo ⟨streamId.toUInt8.toUInt16, totalChunks.toUInt8.toUInt32,
      totalSize.toUInt8.toUInt64, DEFAULT_CHECKSUM_ALGO⟩ = some _ then
    some (⟨streamId.toUInt8.toUInt16, totalChunks.toUInt8.toUInt32,
      totalSize.toUInt8.toUInt64, DEFAULT_CHECKSUM_ALGO⟩ : StreamInfo) else none) = some _
  rw [toUInt16_toUInt8_of_lt hstream, toUInt32_toUInt8_of_lt hchunks,
    toUInt64_toUInt8_of_lt hsize]
  exact if_pos hpacked

/-- The library, as far as numbers below 128 and chunks below 16 bytes go. -/
def smallPackStarts : StartCodec where
  encodeInfo info := orError (packInfo info)
  encodeChunk := smallPack.encodeChunk
  decodeChunk := smallPack.decodeChunk
  encodeEnd := smallPack.encodeEnd
  decodeEnd := smallPack.decodeEnd
  decode_of_encodeChunk := smallPack.decode_of_encodeChunk
  decode_of_encodeEnd := smallPack.decode_of_encodeEnd
  decodeInfo payload := orError (unpackInfo payload)
  decode_of_encodeInfo info payload hencoded := by
    rw [unpackInfo_of_packInfo (orError_eq_ok hencoded)]
    rfl

namespace StreamLink

def idleIo : LinkIo := ⟨0, fun _ => .ok ()⟩

/-- A stream is announced and its first chunk sent, the network brings everything, and the
application and its reader take a frame each. -/
def firstChunk : List TransferEvent :=
  [.create ⟨64, false⟩ [104, 105] 1 idleIo idleIo, .write 0 [104, 105],
    .sendChunk 0 idleIo idleIo, .elsewhere (.deliver 200), .poll .app 0, .poll (.reader 0) 0]

theorem ready_fresh : Ready "a" "b" none (Channel.fresh "a" "b") where
  lossless := StreamConnection.new_lossless "a"
  unread := rfl
  accepted := rfl
  seals := fun _ _ => rfl
  opens := fun _ hused => by cases hused
  connected := rfl

theorem arrives_of_reachable_firstChunk :
    let link := firstChunk.foldl (step smallPackStarts .transparent "a" "b")
      (start (Channel.fresh "a" "b") .new)
    ∀ receiving ∈ link.receivings,
      receiving.reader.received.toNat = min receiving.chunks.length 4294967295 ∧
        (receiving.alone = true → ∃ sending ∈ link.sendings, link.Gets receiving sending) := by
  intro link
  let after := fun count => (firstChunk.take count).foldl
    (step smallPackStarts .transparent "a" "b") (start (Channel.fresh "a" "b") .new)
  have hcreate : (after 0).Undisturbed "a" "b" none
      (.create ⟨64, false⟩ [104, 105] 1 idleIo idleIo) :=
    ⟨rfl, (fun _ hsending => by cases hsending), fun _ hreceiving => by cases hreceiving⟩
  have hwrite : (after 1).Undisturbed "a" "b" none (.write 0 [104, 105]) := trivial
  have hsend : (after 2).Undisturbed "a" "b" none (.sendChunk 0 idleIo idleIo) := by rfl
  have hdeliver : (after 3).Undisturbed "a" "b" none (.elsewhere (.deliver 200)) := trivial
  have hhear : (after 4).Undisturbed "a" "b" none (.poll .app 0) := trivial
  have hnext : (after 5).Undisturbed "a" "b" none (.poll (.reader 0) 0) := trivial
  have reached : ((system smallPackStarts .transparent "a" "b" (Channel.fresh "a" "b")
      .new).restrict (Undisturbed "a" "b" none)).Reachable link :=
    .step (.step (.step (.step (.step (.step (.init rfl) ⟨rfl, hcreate⟩) ⟨rfl, hwrite⟩)
      ⟨rfl, hsend⟩) ⟨rfl, hdeliver⟩) ⟨rfl, hhear⟩) ⟨by rfl, hnext⟩
  exact arrives_of_reachable Primitives.transparent_lawful ready_fresh reached

end StreamLink

end Mlink.Api
