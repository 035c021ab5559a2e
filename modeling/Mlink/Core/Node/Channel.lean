/-
# The single-link path as a channel

Two connected nodes, the stream from the one to the other, and the reader that the
receiving node keeps for the sending one. Sends, the network and the reader take
turns in any order, and other tasks of both nodes change what is not this channel's.

The stream keeps the order of the frames, and a frame opens to the message it was
made from as long as both nodes hold the same key for each other. Put together, what
the receiver publishes is what the sender sent, from the first message on, each once;
and the reader does not give up before it has published the last.
-/

import Mlink.Core.Node.LegacyRoundTrip
import Mlink.Core.Node.PeerReader
import Mlink.Transport.StreamFifo

namespace Mlink.Core

open Mlink.Protocol Mlink.Transport

/-- The stage is one in which the reader still listens. -/
def ReaderStage.listening : ReaderStage → Bool
  | watching | chosen _ | onSession _ | onConn _ => true
  | _ => false

namespace Node

variable {primitives : Primitives} {node : Node} {peerId : String}

/-- The messages a node has published as received from a peer. -/
def received (node : Node) (peerId : String) : List Bytes :=
  node.events.filterMap fun event =>
    match event with
    | .messageReceived sender payload => if sender = peerId then some payload else none
    | _ => none

/-- What the node sends to the peer is sealed with this key, or with none. -/
def SealsWith (node : Node) (peerId : String) (key : Option Bytes) : Prop :=
  ∀ peer, node.peerStates.lookup peerId = some peer → node.activeKey peer = key

/-- What the peer has sealed with this key the node can open. -/
def OpensWith (node : Node) (peerId : String) (key : Option Bytes) : Prop :=
  ∀ used, key = some used → node.encrypt = true ∧
    ∃ state, node.peerStates.lookup peerId = some state ∧ state.aesKey = some used

end Node

/-- The payloads of the application messages among the messages sent. -/
def payloads (messages : List (MessageType × Bytes)) : List Bytes :=
  messages.filterMap fun message => if message.1 = .message then some message.2 else none

theorem payloads_append (first second : List (MessageType × Bytes)) :
    payloads (first ++ second) = payloads first ++ payloads second := List.filterMap_append

/-- One direction of a connection: its two nodes, the stream, the receiver's reader, and
the messages whose send has returned `Ok`. -/
structure Channel where
  sender : Node
  receiver : Node
  stream : StreamConnection
  stage : ReaderStage
  accepted : List (MessageType × Bytes)

/-- One step: a send, the network, the reader, the end of the sender's connection, or
another task of either node. -/
inductive ChannelEvent
  | send (msgType : MessageType) (payload : Bytes) (first retry : LinkIo)
  | deliver (count : Nat)
  | read (io : ReaderIo)
  | close
  | senderElsewhere (node : Node)
  | receiverElsewhere (node : Node)

namespace Channel

variable (primitives : Primitives) (senderId receiverId : String) (key : Option Bytes)
  (channel : Channel)

/-- A send writes at most one frame, and what the stream answers is what it returns. -/
def send (msgType : MessageType) (payload : Bytes) (first retry : LinkIo) : Channel :=
  let attempt := fun answer =>
    channel.sender.sendRaw primitives receiverId msgType payload ⟨first, retry, answer⟩
  match (attempt (.ok ())).written with
  | bytes :: _ =>
      let (answer, stream) := channel.stream.write bytes
      { channel with
        sender := (attempt answer).node
        stream := stream
        accepted :=
          match (attempt answer).result with
          | .ok () => channel.accepted ++ [(msgType, payload)]
          | .error _ => channel.accepted }
  | [] => { channel with sender := (attempt (.ok ())).node }

/-- What that send returns. -/
def sendResult (msgType : MessageType) (payload : Bytes) (first retry : LinkIo) : Result Unit :=
  let attempt := fun answer =>
    channel.sender.sendRaw primitives receiverId msgType payload ⟨first, retry, answer⟩
  match (attempt (.ok ())).written with
  | bytes :: _ => (attempt (channel.stream.write bytes).1).result
  | [] => (attempt (.ok ())).result

/-- The reader takes a step, unless it is parked. -/
def advance (io : ReaderIo) : Channel :=
  match channel.receiver.advance primitives senderId io channel.stage with
  | none => channel
  | some (receiver, stage) => { channel with receiver := receiver, stage := stage }

/-- A reader that is parked on the connection polls the stream; any other goes on. -/
def read (io : ReaderIo) : Channel :=
  match channel.stage with
  | .onConn _ =>
      match channel.stream.read with
      | (none, stream) => { channel with stream := stream }
      | (some result, stream) =>
          advance primitives senderId { channel with stream := stream } { io with read := result }
  | _ => channel.advance primitives senderId io

def step : ChannelEvent → Channel
  | .send msgType payload first retry =>
      channel.send primitives receiverId msgType payload first retry
  | .deliver count => { channel with stream := channel.stream.deliver count }
  | .read io => channel.read primitives senderId io
  | .close => { channel with stream := channel.stream.close }
  | .senderElsewhere node => { channel with sender := node }
  | .receiverElsewhere node => { channel with receiver := node }

/-- The steps of a pair that stays connected over one link: both ends count fewer than
two links when they choose a path, and the other tasks leave the key, the connection and
the messages of this channel alone. -/
def SingleLink : ChannelEvent → Prop
  | .send .. => channel.sender.sessionIsMultilink receiverId = false
  | .read _ => channel.receiver.sessionIsMultilink senderId = false
  | .senderElsewhere node => node.SealsWith receiverId key
  | .receiverElsewhere node =>
      node.received senderId = channel.receiver.received senderId ∧
        (channel.stage.listening = true → node.OpensWith senderId key ∧
          (node.connections.lookup senderId).isSome)
  | .deliver _ | .close => True

/-- The frame a message travels in. -/
def Packs (bytes : Bytes) (message : MessageType × Bytes) : Prop :=
  ∃ seq, packFrame primitives message.1 message.2 key true seq = .ok bytes

/-- A channel whose reader is about to listen: what was read of the stream so far is not
the reader's, and the frames that follow are those of the messages accepted. -/
structure Opened : Prop where
  lossless : channel.stream.Lossless
  packed : List.Forall₂ (Packs primitives key) channel.stream.unread channel.accepted
  watching : channel.stage = .watching
  seals : channel.sender.SealsWith receiverId key
  opens : channel.receiver.OpensWith senderId key
  connected : (channel.receiver.connections.lookup senderId).isSome

/-- The runs of a channel from its opening. -/
def system (start : Channel) : Transition.System Channel ChannelEvent where
  init channel := channel = start
  step source event target := target = source.step primitives senderId receiverId event

/-- How many messages the reader has taken, if it found this many frames read. -/
def taken (skipped : Nat) : Nat := channel.stream.returned.length - skipped

/-- Each accepted message is in the stream as one frame, in the order of the sends. -/
structure Carried (skipped : Nat) : Prop where
  lossless : channel.stream.Lossless
  skips : skipped ≤ channel.stream.returned.length
  packed : List.Forall₂ (Packs primitives key) (channel.stream.written.drop skipped)
    channel.accepted
  seals : channel.sender.SealsWith receiverId key

/-- What holds between any two steps: beside that, the receiver has published the messages
that its reader took. -/
structure Conveys (skipped : Nat) (earlier : List Bytes) : Prop extends
    channel.Carried primitives receiverId key skipped where
  published : channel.receiver.received senderId =
    earlier ++ payloads (channel.accepted.take (channel.taken skipped))
  listens : channel.stage.listening = true →
    (channel.stage = .watching ∨ channel.stage = .chosen false ∨
      ∃ conn, channel.stage = .onConn conn) ∧
    channel.receiver.OpensWith senderId key ∧
    (channel.receiver.connections.lookup senderId).isSome
  gaveUp : channel.stage.listening = false →
    channel.stream.unread = [] ∧ channel.stream.shut = true

end Channel

/-! ## The sender -/

namespace Node

variable {primitives : Primitives} {node : Node} {peerId : String} {key : Option Bytes}

/-- The counter of a peer moves on and its key stays. -/
theorem SealsWith.nextSeq {peer : PeerState} (seals : node.SealsWith peerId key)
    (hpeer : node.peerStates.lookup peerId = some peer) :
    SealsWith { node with peerStates := node.peerStates.insert peerId peer.nextSeq.2 }
      peerId key := by
  intro found hfound
  rw [AList.lookup_insert] at hfound
  cases hfound
  exact seals peer hpeer

/-- A single-link send writes the frame of the message if it writes at all, whatever the
connection answers; it then returns that answer. -/
theorem sendLegacy_cases (seals : node.SealsWith peerId key) (msgType : MessageType)
    (payload : Bytes) :
    (∃ bytes after, Channel.Packs primitives key bytes (msgType, payload) ∧
        after.SealsWith peerId key ∧
        ∀ io : NodeIo, node.sendLegacy primitives peerId msgType payload io =
          ⟨io.conn, after, [bytes]⟩) ∨
      ∃ e after, after.SealsWith peerId key ∧
        ∀ io : NodeIo, node.sendLegacy primitives peerId msgType payload io =
          ⟨.error e, after, []⟩ := by
  cases hpeer : node.peerStates.lookup peerId with
  | none =>
      right
      refine ⟨.peerGone peerId, node, seals, fun io => ?_⟩
      rw [sendLegacy, hpeer]
  | some peer =>
      have hkey : node.activeKey peer = key := seals peer hpeer
      have hnext := seals.nextSeq hpeer
      simp only [sendLegacy_of_known hpeer, hkey]
      cases hpack : packFrame primitives msgType payload key true peer.seq with
      | error e => exact .inr ⟨e, _, hnext, fun io => rfl⟩
      | ok bytes =>
          cases hconn : node.connections.lookup peerId with
          | none => exact .inr ⟨.peerGone peerId, _, hnext, fun io => rfl⟩
          | some conn => exact .inl ⟨bytes, _, ⟨peer.seq, hpack⟩, hnext, fun io => rfl⟩

end Node

namespace Channel

variable {primitives : Primitives} {senderId receiverId : String} {key : Option Bytes}
  {channel : Channel} {skipped : Nat} {earlier : List Bytes}

/-- A send changes neither the receiver nor what was read, and it accepts its message if
it returns `Ok`, or else none. -/
structure Offers (before after : Channel) (message : MessageType × Bytes)
    (result : Result Unit) : Prop where
  receiver : after.receiver = before.receiver
  stage : after.stage = before.stage
  returned : after.stream.returned = before.stream.returned
  shut : after.stream.shut = before.stream.shut
  written : before.stream.shut = true → after.stream.written = before.stream.written
  accepted : (result = .ok () ∧ before.stream.shut = false ∧
      after.accepted = before.accepted ++ [message]) ∨
    (∃ e, result = .error e) ∧ after.accepted = before.accepted

/-- No more messages were taken than accepted. -/
theorem Carried.taken_le (carried : channel.Carried primitives receiverId key skipped) :
    channel.taken skipped ≤ channel.accepted.length := by
  have hwritten := congrArg List.length carried.lossless.returned
  rw [List.length_append] at hwritten
  have hskips := carried.skips
  rw [← carried.packed.length_eq, List.length_drop, taken]
  omega

/-- A send that is accepted adds its message behind the others, and one that is not adds
nothing. -/
theorem Carried.send (carried : channel.Carried primitives receiverId key skipped)
    (msgType : MessageType) (payload : Bytes) (first retry : LinkIo)
    (single : channel.sender.sessionIsMultilink receiverId = false) :
    (channel.send primitives receiverId msgType payload first retry).Carried primitives receiverId
        key skipped ∧
      Offers channel (channel.send primitives receiverId msgType payload first retry)
        (msgType, payload)
        (channel.sendResult primitives receiverId msgType payload first retry) := by
  have hpath (answer : Result Unit) :
      channel.sender.sendRaw primitives receiverId msgType payload ⟨first, retry, answer⟩ =
        channel.sender.sendLegacy primitives receiverId msgType payload
          ⟨first, retry, answer⟩ := by
    rw [Node.sendRaw, single]
    rfl
  rcases Node.sendLegacy_cases carried.seals msgType payload with
    ⟨bytes, after, hpacks, hseals, hsent⟩ | ⟨e, after, hseals, hsent⟩
  · have hlossless := StreamConnection.write_lossless carried.lossless bytes
    have hattempt (answer : Result Unit) := (hpath answer).trans (hsent _)
    simp only [Channel.send, sendResult, hattempt]
    by_cases hshut : channel.stream.shut = true
    · simp only [StreamConnection.write, hshut, if_true]
      exact ⟨{ carried with seals := hseals }, rfl, rfl, rfl, rfl, fun _ => rfl,
        .inr ⟨⟨_, rfl⟩, rfl⟩⟩
    · by_cases hfits : bytes.length ≤ 4294967295
      · simp only [StreamConnection.write, hshut, hfits, if_true, if_false,
          Bool.false_eq_true] at hlossless ⊢
        have hwritten := congrArg List.length carried.lossless.returned
        rw [List.length_append] at hwritten
        have hskips := carried.skips
        have hopen := Bool.eq_false_of_not_eq_true hshut
        refine ⟨⟨hlossless, hskips, ?_, hseals⟩, rfl, rfl, rfl, hopen.symm,
          fun hclosed => absurd hclosed hshut, .inl ⟨rfl, hopen, rfl⟩⟩
        rw [List.drop_append_of_le_length (by omega)]
        exact List.rel_append carried.packed (.cons hpacks .nil)
      · simp only [StreamConnection.write, hshut, hfits, if_false, Bool.false_eq_true]
        exact ⟨{ carried with seals := hseals }, rfl, rfl, rfl, rfl, fun _ => rfl,
          .inr ⟨⟨_, rfl⟩, rfl⟩⟩
  · have hattempt (answer : Result Unit) := (hpath answer).trans (hsent _)
    simp only [Channel.send, sendResult, hattempt]
    exact ⟨{ carried with seals := hseals }, rfl, rfl, rfl, rfl, fun _ => rfl,
      .inr ⟨⟨_, rfl⟩, rfl⟩⟩

/-- What the reader has published stays what the first of the messages are. -/
theorem Conveys.send
    (conveys : channel.Conveys primitives senderId receiverId key skipped earlier)
    (msgType : MessageType) (payload : Bytes) (first retry : LinkIo)
    (single : channel.sender.sessionIsMultilink receiverId = false) :
    (channel.send primitives receiverId msgType payload first retry).Conveys primitives senderId
      receiverId key skipped earlier := by
  obtain ⟨carried, offers⟩ := conveys.toCarried.send msgType payload first retry single
  have hle := conveys.toCarried.taken_le
  refine ⟨carried, ?_, ?_, ?_⟩
  · rw [offers.receiver, taken, offers.returned, ← taken]
    rcases offers.accepted with ⟨_, _, hgrown⟩ | ⟨_, hsame⟩
    · rw [hgrown, List.take_append_of_le_length hle]
      exact conveys.published
    · rw [hsame]
      exact conveys.published
  · rw [offers.stage, offers.receiver]
    exact conveys.listens
  · rw [offers.stage, StreamConnection.unread, offers.returned, offers.shut]
    intro hgone
    obtain ⟨hunread, hshut⟩ := conveys.gaveUp hgone
    rw [offers.written hshut]
    exact ⟨hunread, hshut⟩

end Channel

/-! ## The reader -/

namespace Node

variable {primitives : Primitives} {node after : Node} {peerId : String} {key : Option Bytes}

/-- Publishing a frame adds its payload to the messages received if it is a message. -/
theorem received_publish (message : MessageType × Bytes) :
    (node.publish peerId message).received peerId = node.received peerId ++ payloads [message] := by
  by_cases hmessage : message.1 = .message
  · simp [publish, received, payloads, emit, hmessage]
  · simp [publish, payloads, hmessage]

/-- Publishing changes neither what is known of the peers nor the connections. -/
theorem publish_keeps (message : MessageType × Bytes) :
    (node.publish peerId message).encrypt = node.encrypt ∧
      (node.publish peerId message).peerStates = node.peerStates ∧
      (node.publish peerId message).connections = node.connections := by
  rw [publish]
  split_ifs
  · exact ⟨rfl, rfl, rfl⟩
  · exact ⟨rfl, rfl, rfl⟩

theorem OpensWith.publish (opens : node.OpensWith peerId key) (message : MessageType × Bytes) :
    (node.publish peerId message).OpensWith peerId key := by
  have hkeeps : _ ∧ (node.publish peerId message).peerStates = node.peerStates ∧ _ :=
    publish_keeps message
  rwa [OpensWith, hkeeps.1, hkeeps.2.1]

theorem received_markDisconnected (other : String) :
    (node.markDisconnected other).received peerId = node.received peerId := by
  rw [received, events_markDisconnected, received]

/-- A reader that has given up listens no more and publishes no message. -/
theorem received_of_gaveUp {io : ReaderIo} {stage next : ReaderStage}
    (gaveUp : stage.listening = false)
    (advanced : node.advance primitives peerId io stage = some (after, next)) :
    next.listening = false ∧ after.received peerId = node.received peerId := by
  cases stage with
  | watching => cases gaveUp
  | chosen useSession => cases gaveUp
  | onSession sessionId => cases gaveUp
  | onConn conn => cases gaveUp
  | failed useSession =>
      cases useSession with
      | true =>
          cases advanced
          exact ⟨rfl, rfl⟩
      | false =>
          rw [advance] at advanced
          split at advanced
          · cases advanced
            exact ⟨rfl, rfl⟩
          · cases advanced
            exact ⟨rfl, rfl⟩
  | detaching linkId =>
      cases advanced
      exact ⟨rfl, rfl⟩
  | dropping =>
      cases advanced
      exact ⟨rfl, rfl⟩
  | evicting =>
      cases advanced
      exact ⟨rfl, rfl⟩
  | removing =>
      cases advanced
      exact ⟨rfl, rfl⟩
  | marking =>
      cases advanced
      exact ⟨rfl, received_markDisconnected peerId⟩
  | announcing =>
      cases advanced
      refine ⟨rfl, ?_⟩
      simp [received, emit]
  | finished => cases advanced

/-- A node that holds the key opens the frame of a message. -/
theorem OpensWith.decodeMessage (lawful : primitives.Lawful) (opens : node.OpensWith peerId key)
    {bytes : Bytes} {message : MessageType × Bytes}
    (packs : Channel.Packs primitives key bytes message) :
    node.decodeMessage primitives peerId bytes = .ok message := by
  obtain ⟨seq, hpack⟩ := packs
  obtain ⟨packed, hpacked, hfits, rfl⟩ := packFrame_eq_ok.mp hpack
  exact decodeMessage_of_packed lawful message.1 opens hpacked hfits

/-- And so does a caller of `recvRaw`. -/
theorem OpensWith.decodeRaw (lawful : primitives.Lawful) (opens : node.OpensWith peerId key)
    {bytes : Bytes} {message : MessageType × Bytes}
    (packs : Channel.Packs primitives key bytes message) :
    ∃ frame, node.decodeRaw primitives peerId bytes = .ok (frame, message.2) ∧
      (decodeFlags frame.flags).2.2 = message.1 := by
  obtain ⟨seq, hpack⟩ := packs
  obtain ⟨packed, hpacked, hfits, rfl⟩ := packFrame_eq_ok.mp hpack
  obtain ⟨body, hbody, hsealed⟩ := packBody_eq_ok.mp hpacked
  have hopen : node.openRaw primitives peerId (packed.frame message.1 seq) packed.encrypted =
      .ok body := by
    have hsplit := decrypt_of_encryptBody lawful hsealed
    cases key with
    | none =>
        obtain ⟨hplain, hsame⟩ := hsplit
        simp [openRaw, PackedBody.frame, hplain, hsame]
    | some used =>
        obtain ⟨hflag, hdecrypt⟩ := hsplit
        obtain ⟨_, state, hstate, hkey⟩ := opens used rfl
        simp [openRaw, PackedBody.frame, hflag, hstate, hkey, hdecrypt]
  have hpayload := decompress_of_compressBody lawful hbody
  have hflags : decodeFlags (packed.frame message.1 seq).flags =
      (packed.compressed, packed.encrypted, message.1) := decodeFlags_encodeFlags _ _ _
  refine ⟨packed.frame message.1 seq, ?_, by rw [hflags]⟩
  simp only [Node.decodeRaw, decodeFrame_of_packFrame message.1 seq hfits, hflags, hopen, bind,
    Except.bind]
  cases hcompressed : packed.compressed with
  | false =>
      rw [hcompressed] at hpayload
      cases hpayload
      rfl
  | true =>
      rw [hcompressed, if_pos rfl] at hpayload
      simp only [hpayload, if_true, pure, Except.pure]

/-- The caller gets the message, and the key and the connection stay as they are. -/
theorem OpensWith.recvRaw (lawful : primitives.Lawful) (opens : node.OpensWith peerId key)
    (connected : (node.connections.lookup peerId).isSome) {bytes : Bytes}
    {message : MessageType × Bytes} (packs : Channel.Packs primitives key bytes message)
    (now : Instant) :
    ∃ frame after, node.recvRaw primitives peerId (.ok bytes) now =
        (.ok (frame, message.2), after) ∧
      (decodeFlags frame.flags).2.2 = message.1 ∧ after.OpensWith peerId key ∧
      after.connections = node.connections := by
  obtain ⟨conn, hconn⟩ := Option.isSome_iff_exists.mp connected
  obtain ⟨frame, hdecode, hkind⟩ := opens.decodeRaw lawful packs
  simp only [Node.recvRaw, hconn, Except.bind, hdecode]
  split_ifs
  · cases hpeer : node.peerStates.lookup peerId with
    | none => exact ⟨frame, node, rfl, hkind, opens, rfl⟩
    | some peer =>
        refine ⟨frame, _, rfl, hkind, ?_, rfl⟩
        intro used hused
        obtain ⟨hencrypt, state, hstate, hkey⟩ := opens used hused
        cases hpeer.symm.trans hstate
        exact ⟨hencrypt, _, AList.lookup_insert _, hkey⟩
  · exact ⟨frame, node, rfl, hkind, opens, rfl⟩

/-- A heartbeat leaves the key and the connection of the peer as they are. -/
theorem OpensWith.readFrame (lawful : primitives.Lawful) (opens : node.OpensWith peerId key)
    {bytes : Bytes} {message : MessageType × Bytes}
    (packs : Channel.Packs primitives key bytes message) (now : Instant) :
    ∃ after, node.readFrame primitives peerId (.ok bytes) now = (.ok message, after) ∧
      after.OpensWith peerId key ∧ after.connections = node.connections ∧
      after.events = node.events := by
  have hdecode := opens.decodeMessage lawful packs
  rw [Node.readFrame, Except.bind, hdecode]
  dsimp only
  split_ifs
  · cases hpeer : node.peerStates.lookup peerId with
    | none => exact ⟨node, rfl, opens, rfl, rfl⟩
    | some peer =>
        refine ⟨_, rfl, ?_, rfl, rfl⟩
        intro used hused
        obtain ⟨hencrypt, state, hstate, hkey⟩ := opens used hused
        cases hpeer.symm.trans hstate
        exact ⟨hencrypt, _, AList.lookup_insert _, hkey⟩
  · exact ⟨node, rfl, opens, rfl, rfl⟩

end Node

namespace Channel

variable {primitives : Primitives} {senderId receiverId : String} {key : Option Bytes}
  {channel : Channel} {skipped : Nat} {earlier : List Bytes}

/-- The frames not read yet are those of the messages not taken yet. -/
theorem Carried.waiting (carried : channel.Carried primitives receiverId key skipped) :
    List.Forall₂ (Packs primitives key) channel.stream.unread
      (channel.accepted.drop (channel.taken skipped)) := by
  have hrest := List.forall₂_drop (channel.taken skipped) carried.packed
  rwa [List.drop_drop, taken, Nat.add_sub_cancel' carried.skips] at hrest

/-- When nothing is left to read, every message has been taken. -/
theorem Carried.settled (carried : channel.Carried primitives receiverId key skipped)
    (hunread : channel.stream.unread = []) :
    channel.accepted.drop (channel.taken skipped) = [] := by
  have hrest := carried.waiting
  rw [hunread] at hrest
  exact List.forall₂_nil_left_iff.mp hrest

/-- An idle network and a reader that is still waiting leave nothing to read. -/
theorem Carried.unread_of_idle
    (carried : channel.Carried primitives receiverId key skipped)
    (hidle : channel.stream.inflight = []) (hpending : channel.stream.read.1 = none) :
    channel.stream.unread = [] := by
  rcases StreamConnection.read_cases carried.lossless with
    ⟨_, _, _, hready, _⟩ | ⟨_, _, hnothing⟩ | ⟨hended, _⟩
  · rw [hready] at hpending
    cases hpending
  · exact (hnothing hidle).1
  · rw [hended] at hpending
    cases hpending

/-- The first of them is that of the next message. -/
theorem Carried.next (carried : channel.Carried primitives receiverId key skipped)
    {bytes : Bytes} {later : List Bytes} (hunread : channel.stream.unread = bytes :: later) :
    ∃ message, Packs primitives key bytes message ∧
      channel.accepted.take (channel.taken skipped + 1) =
        channel.accepted.take (channel.taken skipped) ++ [message] := by
  have hrest := carried.waiting
  rw [hunread] at hrest
  rcases hdrop : channel.accepted.drop (channel.taken skipped) with _ | ⟨message, rest⟩
  · rw [hdrop] at hrest
    cases hrest
  · rw [hdrop] at hrest
    cases hrest with
    | cons hpacks _ =>
        refine ⟨message, hpacks, ?_⟩
        have hfound : channel.accepted[channel.taken skipped]? = some message := by
          rw [← List.head?_drop, hdrop]
          rfl
        rw [List.take_add_one, hfound]
        rfl

/-- The reader takes what the stream has for it. -/
theorem Conveys.readStream (lawful : primitives.Lawful)
    (conveys : channel.Conveys primitives senderId receiverId key skipped earlier) {conn : ConnId}
    (hstage : channel.stage = .onConn conn) (io : ReaderIo) :
    (channel.read primitives senderId io).Conveys primitives senderId receiverId key skipped
      earlier := by
  have hlossless := StreamConnection.read_lossless conveys.lossless
  have hlistens := conveys.listens (by rw [hstage]; rfl)
  have hkept := StreamConnection.written_read channel.stream
  have hskips := conveys.skips
  rcases hread : channel.stream.read with ⟨polled, stream⟩
  rw [hread] at hlossless hkept
  obtain ⟨hwritten, hclosed⟩ := hkept
  rcases StreamConnection.read_cases conveys.lossless with
    ⟨bytes, later, hunread, hready, hreturned⟩ | ⟨hpending, hreturned, _⟩ |
    ⟨hended, hunread, hshut, hreturned⟩
  · rw [hread] at hready hreturned
    obtain ⟨message, hpacks, htake⟩ := conveys.next hunread
    obtain ⟨after, hframe, hopens, hconnections, hevents⟩ :=
      hlistens.2.1.readFrame lawful hpacks io.now
    cases hready
    have hafter : after.received senderId = channel.receiver.received senderId := by
      rw [Node.received, hevents, Node.received]
    simp only [Channel.read, Channel.advance, hstage, hread, Node.advance, hframe, Node.afterRead]
    refine ⟨⟨hlossless, ?_, ?_, conveys.seals⟩, ?_, ?_, fun hgone => by cases hgone⟩
    · rw [hreturned, List.length_append]
      omega
    · rw [hwritten]
      exact conveys.packed
    · have htaken : stream.returned.length - skipped = channel.taken skipped + 1 := by
        rw [hreturned, List.length_append, List.length_singleton, taken]
        omega
      show _ = earlier ++ payloads (channel.accepted.take (stream.returned.length - skipped))
      rw [Node.received_publish, hafter, conveys.published, htaken, htake, payloads_append,
        List.append_assoc]
    · intro _
      refine ⟨.inl rfl, hopens.publish message, ?_⟩
      rw [(Node.publish_keeps message).2.2, hconnections]
      exact hlistens.2.2
  · rw [hread] at hpending hreturned
    cases hpending
    simp only [Channel.read, hstage, hread]
    refine ⟨⟨hlossless, ?_, ?_, conveys.seals⟩, ?_, ?_, fun hgone => by cases hgone⟩
    · rw [hreturned]
      exact hskips
    · rw [hwritten]
      exact conveys.packed
    · rw [taken, hreturned]
      exact conveys.published
    · rw [← hstage]
      exact conveys.listens
  · rw [hread] at hended hreturned
    cases hended
    have hframe : channel.receiver.readFrame primitives senderId (.error (.io "early eof")) io.now =
        (.error (.io "early eof"), channel.receiver) := rfl
    simp only [Channel.read, Channel.advance, hstage, hread, Node.advance, hframe, Node.afterRead]
    refine ⟨⟨hlossless, ?_, ?_, conveys.seals⟩, ?_, ?_, fun _ => ?_⟩
    · rw [hreturned]
      exact hskips
    · rw [hwritten]
      exact conveys.packed
    · rw [taken, hreturned]
      exact conveys.published
    · intro hlistening
      cases hlistening
    · rw [StreamConnection.unread] at hunread ⊢
      rw [hwritten, hreturned, hclosed]
      exact ⟨hunread, hshut⟩

/-- A step of the reader publishes the next message, or none, and the reader listens on
until the stream has ended. -/
theorem Conveys.read (lawful : primitives.Lawful)
    (conveys : channel.Conveys primitives senderId receiverId key skipped earlier) (io : ReaderIo)
    (single : channel.receiver.sessionIsMultilink senderId = false) :
    (channel.read primitives senderId io).Conveys primitives senderId receiverId key skipped
      earlier := by
  cases hlistening : channel.stage.listening with
  | true =>
      obtain ⟨hplace, hopens, hconnected⟩ := conveys.listens hlistening
      rcases hplace with hstage | hstage | ⟨conn, hstage⟩
      · simp only [Channel.read, Channel.advance, hstage, Node.advance, single]
        exact { conveys with
          listens := fun _ => ⟨.inr (.inl rfl), hopens, hconnected⟩
          gaveUp := fun hgone => by cases hgone }
      · obtain ⟨conn, hconn⟩ := Option.isSome_iff_exists.mp hconnected
        simp only [Channel.read, Channel.advance, hstage, Node.advance, hconn]
        exact { conveys with
          listens := fun _ => ⟨.inr (.inr ⟨conn, rfl⟩), hopens, hconnected⟩
          gaveUp := fun hgone => by cases hgone }
      · exact conveys.readStream lawful hstage io
  | false =>
      have hread : channel.read primitives senderId io =
          channel.advance primitives senderId io := by
        rw [Channel.read]
        cases hstage : channel.stage with
        | onConn conn =>
            rw [hstage] at hlistening
            cases hlistening
        | _ => rfl
      rw [hread, Channel.advance]
      cases hadvance : channel.receiver.advance primitives senderId io channel.stage with
      | none => exact conveys
      | some moved =>
          obtain ⟨hgone, hreceived⟩ := Node.received_of_gaveUp hlistening hadvance
          dsimp only
          exact { conveys with
            published := hreceived.trans conveys.published
            listens := fun hstill => absurd hstill (by rw [hgone]; exact Bool.false_ne_true)
            gaveUp := fun _ => conveys.gaveUp hlistening }

/-! ## Whole runs -/

/-- Every step of a pair that stays connected over one link conveys. -/
theorem Conveys.step (lawful : primitives.Lawful)
    (conveys : channel.Conveys primitives senderId receiverId key skipped earlier)
    (event : ChannelEvent)
    (single : channel.SingleLink senderId receiverId key event) :
    (channel.step primitives senderId receiverId event).Conveys primitives senderId receiverId
      key skipped earlier := by
  cases event with
  | send msgType payload first retry => exact conveys.send msgType payload first retry single
  | deliver count =>
      exact { conveys with
        lossless := StreamConnection.deliver_lossless conveys.lossless count }
  | read io => exact conveys.read lawful io single
  | close =>
      exact { conveys with
        lossless := StreamConnection.close_lossless conveys.lossless
        gaveUp := fun hgone => ⟨(conveys.gaveUp hgone).1, rfl⟩ }
  | senderElsewhere node => exact { conveys with seals := single }
  | receiverElsewhere node =>
      exact { conveys with
        published := single.1.trans conveys.published
        listens := fun hlistening =>
          ⟨(conveys.listens hlistening).1, single.2 hlistening⟩ }

theorem Opened.conveys {start : Channel}
    (opened : start.Opened primitives senderId receiverId key) :
    start.Conveys primitives senderId receiverId key start.stream.returned.length
      (start.receiver.received senderId) where
  lossless := opened.lossless
  skips := Nat.le_refl _
  packed := opened.packed
  seals := opened.seals
  published := by
    rw [taken, Nat.sub_self, List.take_zero]
    exact (List.append_nil _).symm
  listens := fun _ => ⟨.inl opened.watching, opened.opens, opened.connected⟩
  gaveUp := by
    rw [opened.watching]
    exact fun hgone => by cases hgone

/-- In every run over one link, whatever the order of sends, network and reader and however
the bytes are cut up, the receiver has published the application messages among the first of
the messages accepted for sending, in order and each once. Nothing is missing when the
reader gives up, which it does only once the sender has closed, and nothing is missing when
it is still waiting although the network is idle. -/
theorem published_of_reachable (lawful : primitives.Lawful) {start : Channel}
    (opened : start.Opened primitives senderId receiverId key)
    (reached : ((system primitives senderId receiverId start).restrict
      (SingleLink senderId receiverId key)).Reachable channel) :
    ∃ taken waiting, channel.accepted = taken ++ waiting ∧
      channel.receiver.received senderId =
        start.receiver.received senderId ++ payloads taken ∧
      (channel.stage.listening = false → waiting = [] ∧ channel.stream.shut = true) ∧
      (channel.stream.inflight = [] → channel.stream.read.1 = none → waiting = []) := by
  have conveys : channel.Conveys primitives senderId receiverId key
      start.stream.returned.length (start.receiver.received senderId) := by
    apply reached.invariant fun channel => channel.Conveys primitives senderId receiverId key
      start.stream.returned.length (start.receiver.received senderId)
    · rintro _ rfl
      exact opened.conveys
    · rintro source event _ _ hsource ⟨rfl, hguard⟩
      exact hsource.step lawful event hguard
  refine ⟨_, _, (List.take_append_drop (channel.taken start.stream.returned.length) _).symm,
    conveys.published, ?_, ?_⟩
  · intro hgone
    obtain ⟨hunread, hshut⟩ := conveys.gaveUp hgone
    exact ⟨conveys.settled hunread, hshut⟩
  · intro hidle hpending
    exact conveys.settled (conveys.unread_of_idle hidle hpending)

/-- A channel between two nodes that do not encrypt, with nothing sent yet. -/
def fresh (senderId receiverId : String) : Channel where
  sender := Node.aboutToWrap senderId receiverId
  receiver := Node.aboutToWrap receiverId senderId
  stream := .new senderId
  stage := .watching
  accepted := []

theorem opened_fresh : (fresh "a" "b").Opened .transparent "a" "b" none where
  lossless := StreamConnection.new_lossless "a"
  packed := .nil
  watching := rfl
  seals := fun _ _ => rfl
  opens := fun _ hused => by cases hused
  connected := rfl

/-- One message is sent and the network brings half of its bytes. -/
theorem published_of_reachable_halfway :
    let idle : LinkIo := ⟨0, fun _ => .ok ()⟩
    let channel := [ChannelEvent.send .message [104, 105] idle idle, .deliver 7].foldl
      (step .transparent "a" "b") (fresh "a" "b")
    ∃ taken waiting, channel.accepted = taken ++ waiting ∧
      channel.receiver.received "a" = (fresh "a" "b").receiver.received "a" ++ payloads taken ∧
      (channel.stage.listening = false → waiting = [] ∧ channel.stream.shut = true) ∧
      (channel.stream.inflight = [] → channel.stream.read.1 = none → waiting = []) := by
  intro idle channel
  apply published_of_reachable Primitives.transparent_lawful opened_fresh
  have hsend : (fresh "a" "b").SingleLink "a" "b" none (.send .message [104, 105] idle idle) := rfl
  have hdeliver : ((fresh "a" "b").step .transparent "a" "b"
      (.send .message [104, 105] idle idle)).SingleLink "a" "b" none (.deliver 7) := trivial
  exact .step (.step (.init rfl) ⟨by rfl, hsend⟩) ⟨by rfl, hdeliver⟩

end Channel

end Mlink.Core
