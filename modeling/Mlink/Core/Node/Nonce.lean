/-
# Nonces under one key

Both ends of a pair encrypt under the same key, and each derives its nonces
from two counters of its own: the 16-bit counter of the single-link path, and
the low half of the session's counter, which starts over with every session.
The crate builds each nonce with `Nonce::assume_unique_for_key`. That holds
only where one counter is the only one in use, and for one turn of it.
-/

import Mlink.Core.Node.Io
import Mlink.Lib.Serial
import Mlink.Lib.Stamp

namespace Mlink.Core

open Mlink.Protocol

/-! ## The calls of `encrypt` -/

/-- One call of `encrypt`: the key, the nonce it builds and its plaintext. -/
structure Encryption where
  key : Bytes
  nonce : Bytes
  plaintext : Bytes
  deriving DecidableEq, Repr

/-- The call that packing a payload makes: none without a key, and none when
the payload does not compress. -/
def packEncryption (primitives : Primitives) (payload : Bytes) (key : Option Bytes)
    (compressOn : Bool) (seq : UInt16) : Option Encryption :=
  match key, compressBody primitives payload compressOn with
  | some key, .ok (body, _) => some ⟨key, seqNonce seq, body⟩
  | _, _ => none

/-- The call that a send to a peer makes, on the path it takes. -/
def Node.sendEncryption (primitives : Primitives) (node : Node) (peerId : String)
    (payload : Bytes) : Option Encryption :=
  if node.sessionIsMultilink peerId then
    match node.sessions.get peerId, node.peerStates.lookup peerId with
    | some session, some peer =>
        packEncryption primitives payload (node.activeKey peer) true
          session.sendSeq.next.1.toUInt16
    | _, _ => none
  else
    match node.peerStates.lookup peerId with
    | none => none
    | some peer =>
        packEncryption primitives payload (node.activeKey peer.nextSeq.2) true peer.nextSeq.1

section SameCall

variable {primitives other : Primitives} {payload : Bytes}

/-- Packing calls the AEAD on nothing but its one call. -/
theorem packFrame_of_same_encryption (msgType : MessageType) {key : Option Bytes}
    {compressOn : Bool} {seq : UInt16}
    (zstd : other.zstdEncodeAll = primitives.zstdEncodeAll)
    (aead : ∀ call ∈ packEncryption primitives payload key compressOn seq,
      other.sealInPlaceAppendTag call.key call.nonce call.plaintext =
        primitives.sealInPlaceAppendTag call.key call.nonce call.plaintext) :
    packFrame other msgType payload key compressOn seq =
      packFrame primitives msgType payload key compressOn seq := by
  have hcompress : compressBody other payload compressOn =
      compressBody primitives payload compressOn := by
    simp only [compressBody, compress, zstd]
  have hpack : packBody other payload key compressOn seq =
      packBody primitives payload key compressOn seq := by
    rw [packBody, packBody, hcompress]
    cases hbody : compressBody primitives payload compressOn with
    | error e => rfl
    | ok result =>
        cases key with
        | none => rfl
        | some key =>
            have hseal := aead ⟨key, seqNonce seq, result.1⟩ (by
              simp only [packEncryption, hbody]
              rfl)
            have hencrypt :
                encrypt other result.1 key seq = encrypt primitives result.1 key seq := by
              by_cases hkey : key.length = 32
              · simp [encrypt, aeadKey, hkey, bind, Except.bind, hseal]
              · simp [encrypt, aeadKey, hkey, bind, Except.bind]
            simp only [encryptBody, bind, Except.bind, hencrypt]
  simp only [packFrame, hpack]

/-- Neither does a send, so `sendEncryption` is every call a send makes. -/
theorem Node.sendRaw_of_same_encryption {node : Node} {peerId : String} {msgType : MessageType}
    {io : NodeIo} (zstd : other.zstdEncodeAll = primitives.zstdEncodeAll)
    (aead : ∀ call ∈ node.sendEncryption primitives peerId payload,
      other.sealInPlaceAppendTag call.key call.nonce call.plaintext =
        primitives.sealInPlaceAppendTag call.key call.nonce call.plaintext) :
    node.sendRaw other peerId msgType payload io =
      node.sendRaw primitives peerId msgType payload io := by
  cases hmode : node.sessionIsMultilink peerId with
  | true =>
      simp only [sendEncryption, hmode, if_true] at aead
      simp only [sendRaw, hmode, if_true]
      cases hsession : node.sessions.get peerId with
      | none => simp only [sendViaSession, hsession]
      | some session =>
          cases hpeer : node.peerStates.lookup peerId with
          | none => simp only [sendViaSession, hsession, hpeer]
          | some peer =>
              simp only [hsession, hpeer] at aead
              have hframe := packFrame_of_same_encryption msgType zstd aead
              simp only [sendViaSession, hsession, hpeer, Session.send, hframe]
  | false =>
      simp only [sendEncryption, hmode, Bool.false_eq_true, if_false] at aead
      simp only [sendRaw, hmode, Bool.false_eq_true, if_false]
      cases hpeer : node.peerStates.lookup peerId with
      | none => simp only [sendLegacy, hpeer]
      | some peer =>
          simp only [hpeer] at aead
          have hframe : packFrame other msgType payload (node.activeKey peer) true peer.seq =
              packFrame primitives msgType payload (node.activeKey peer) true peer.seq :=
            packFrame_of_same_encryption msgType zstd aead
          rw [sendLegacy_of_known hpeer, sendLegacy_of_known hpeer, hframe]

end SameCall

/-! ## Runs of two ends -/

/-- What happens at one end between two of its sends. Links attach and detach,
and a session is dropped and opened again; nothing else touches a counter. -/
inductive EndOp
  | send (side : Side) (msgType : MessageType)
  | relink (side : Side) (links : List Link)
  | reopen (side : Side) (links : List Link) (sessionId : SessionId)
  deriving DecidableEq, Repr

/-- What a send carries, and what the world answers to it. -/
structure Content where
  payload : Bytes
  io : NodeIo

/-- Both nodes. -/
abbrev Ends := Side → Node

namespace Ends

variable (primitives : Primitives) (peer : Side → String)

/-- Change the links of a session, whichever way. -/
def relink (node : Node) (peerId : String) (links : List Link) : Node :=
  match node.sessions.get peerId with
  | some session =>
      { node with sessions := ⟨node.sessions.peers.insert peerId { session with links }⟩ }
  | none => node

/-- Open a new session in place of the old one. -/
def reopen (node : Node) (peerId : String) (links : List Link) (sessionId : SessionId) : Node :=
  { node with
    sessions :=
      ⟨node.sessions.peers.insert peerId { Session.new peerId sessionId with links }⟩ }

/-- The nodes after one operation; `peer` is the id each end has for the other. -/
def next (ends : Ends) (op : EndOp) (content : Content) : Ends :=
  match op with
  | .send side msgType =>
      Function.update ends side
        ((ends side).sendRaw primitives (peer side) msgType content.payload content.io).node
  | .relink side links => Function.update ends side (relink (ends side) (peer side) links)
  | .reopen side links sessionId =>
      Function.update ends side (reopen (ends side) (peer side) links sessionId)

/-- The calls of `encrypt` in a run, oldest first. -/
def encryptions (ends : Ends) : List (EndOp × Content) → List Encryption
  | [] => []
  | (op, content) :: rest =>
      let later := encryptions (ends.next primitives peer op content) rest
      match op with
      | .send side _ =>
          ((ends side).sendEncryption primitives (peer side) content.payload).toList ++ later
      | .relink _ _ | .reopen _ _ _ => later

/-- Both ends encrypt under one key, and no counter has moved yet. -/
structure Paired (key : Bytes) (ends : Ends) : Prop where
  encrypts : ∀ side, (ends side).encrypt = true
  keyed : ∀ side, ∃ state, (ends side).peerStates.lookup (peer side) =
    some { PeerState.new with state, aesKey := some key }
  opened : ∀ side, ∃ session, (ends side).sessions.get (peer side) = some session ∧
    session.sendSeq = .new

end Ends

/-- No key and nonce are used on two different plaintexts. -/
def NonceUnique (calls : List Encryption) : Prop :=
  calls.Pairwise fun first second =>
    first.key = second.key → first.nonce = second.nonce → first.plaintext = second.plaintext

/-! ## Which counter a send uses -/

/-- A counter: that of an end's single-link path, or that of one of the
sessions it opened. -/
structure Source where
  side : Side
  session : Option Nat
  deriving DecidableEq, Repr

/-- How many links each end has, and how many sessions it has opened again. -/
structure Roster where
  links : Side → Nat
  opened : Side → Nat

namespace Roster

/-- The roster at the start of a run. -/
def ofEnds (peer : Side → String) (ends : Ends) : Roster where
  links side := ((ends side).sessions.get (peer side)).elim 0 fun session => session.links.length
  opened _ := 0

/-- The path an end is on decides the counter. -/
def source (roster : Roster) (side : Side) : Source :=
  ⟨side, if 2 ≤ roster.links side then some (roster.opened side) else none⟩

def next (roster : Roster) : EndOp → Roster
  | .send _ _ => roster
  | .relink side links =>
      { roster with links := Function.update roster.links side links.length }
  | .reopen side links _ =>
      { links := Function.update roster.links side links.length
        opened := Function.update roster.opened side (roster.opened side + 1) }

/-- The counters that the sends of a schedule use, in order. -/
def sources (roster : Roster) : List EndOp → List Source
  | [] => []
  | op :: rest =>
      let later := sources (roster.next op) rest
      match op with
      | .send side _ => roster.source side :: later
      | .relink _ _ | .reopen _ _ _ => later

end Roster

/-! ## The counters follow the roster -/

namespace Ends

variable {primitives : Primitives} {peer : Side → String} {key : Bytes}

/-- What one end's counters hold, in terms of how often each was used. -/
structure Tracks (key : Bytes) (peerId : String) (roster : Roster) (used : Source → Nat)
    (side : Side) (node : Node) : Prop where
  encrypts : node.encrypt = true
  keyed : ∃ state, node.peerStates.lookup peerId = some state ∧ state.aesKey = some key ∧
    state.seq = UInt16.ofNat (used ⟨side, none⟩)
  opened : ∃ session, node.sessions.get peerId = some session ∧
    session.links.length = roster.links side ∧
    session.sendSeq.nextSeq = UInt32.ofNat (used ⟨side, some (roster.opened side)⟩)
  unopened : ∀ later, roster.opened side < later → used ⟨side, some later⟩ = 0

theorem Tracks.multilink {peerId : String} {roster : Roster} {used : Source → Nat} {side : Side}
    {node : Node} (tracks : Tracks key peerId roster used side node) :
    node.sessionIsMultilink peerId = decide (2 ≤ roster.links side) := by
  obtain ⟨session, hsession, hlinks, _⟩ := tracks.opened
  simp [Node.sessionIsMultilink, hsession, hlinks]

/-- A send encrypts under the residue of the uses of its counter. -/
theorem Tracks.sendEncryption {peerId : String} {roster : Roster} {used : Source → Nat}
    {side : Side} {node : Node} (tracks : Tracks key peerId roster used side node)
    (payload : Bytes) :
    node.sendEncryption primitives peerId payload =
      packEncryption primitives payload (some key) true
        (UInt16.ofNat (used (roster.source side))) := by
  obtain ⟨session, hsession, _, hseq⟩ := tracks.opened
  obtain ⟨state, hstate, hkey, hcounter⟩ := tracks.keyed
  by_cases multilink : 2 ≤ roster.links side
  · have hlow : (UInt32.ofNat (used ⟨side, some (roster.opened side)⟩)).toUInt16 =
        UInt16.ofNat (used ⟨side, some (roster.opened side)⟩) := by
      apply UInt16.toNat_inj.mp
      simp
    simp only [Node.sendEncryption, tracks.multilink, multilink, decide_true, if_true, hsession,
      hstate, Node.activeKey, tracks.encrypts, hkey, SeqGen.next, hseq, hlow, Roster.source]
  · simp only [Node.sendEncryption, tracks.multilink, multilink, decide_false,
      Bool.false_eq_true, if_false, hstate, Node.activeKey, tracks.encrypts, if_true, hkey,
      PeerState.nextSeq, hcounter, Roster.source]

/-- A send counts one use of its counter. -/
theorem Tracks.sendRaw {peerId : String} {roster : Roster} {used : Source → Nat}
    {side : Side} {node : Node} (tracks : Tracks key peerId roster used side node)
    (msgType : MessageType) (payload : Bytes) (io : NodeIo) :
    Tracks key peerId roster (Stamp.count used (roster.source side)) side
      (node.sendRaw primitives peerId msgType payload io).node := by
  obtain ⟨session, hsession, hlinks, hseq⟩ := tracks.opened
  obtain ⟨state, hstate, hkey, hcounter⟩ := tracks.keyed
  by_cases multilink : 2 ≤ roster.links side
  · have hsource : roster.source side = ⟨side, some (roster.opened side)⟩ := by
      simp [Roster.source, multilink]
    have hsend := Session.send_keeps primitives session msgType payload (node.activeKey state)
      true io.first io.retry
    have hnode : (node.sendRaw primitives peerId msgType payload io).node =
        { node with
          sessions := ⟨node.sessions.peers.insert peerId
            (session.send primitives msgType payload (node.activeKey state) true io.first
              io.retry).session⟩ } := by
      simp [Node.sendRaw, tracks.multilink, multilink, Node.sendViaSession, hsession, hstate]
    rw [hsource, hnode]
    refine ⟨tracks.encrypts, ⟨state, hstate, hkey, ?_⟩, ⟨_, AList.lookup_insert _, ?_, ?_⟩, ?_⟩
    · simpa [Stamp.count] using hcounter
    · have hlength := congrArg List.length hsend.ids
      simpa [Session.spendSeq, hlinks] using hlength
    · rw [hsend.sendSeq, Stamp.count, Function.update_self, ← Serial.ofNat_succ, ← hseq]
      rfl
    · intro later hlater
      have hne : later ≠ roster.opened side := by omega
      simpa [Stamp.count, Function.update_apply, hne] using tracks.unopened later hlater
  · have hsource : roster.source side = ⟨side, none⟩ := by
      simp [Roster.source, multilink]
    have hnode : (node.sendRaw primitives peerId msgType payload io).node =
        { node with peerStates := node.peerStates.insert peerId state.nextSeq.2 } := by
      simp only [Node.sendRaw, tracks.multilink, multilink, decide_false, Bool.false_eq_true,
        if_false, Node.sendLegacy_of_known hstate]
      cases packFrame primitives msgType payload _ true state.seq with
      | error e => rfl
      | ok bytes => cases node.connections.lookup peerId <;> rfl
    rw [hsource, hnode]
    refine ⟨tracks.encrypts, ⟨_, AList.lookup_insert _, hkey, ?_⟩, ⟨session, hsession, hlinks, ?_⟩,
      ?_⟩
    · apply UInt16.toNat_inj.mp
      simp [PeerState.nextSeq, hcounter, Stamp.count]
    · simp [Stamp.count, hseq]
    · intro later hlater
      simpa [Stamp.count, Function.update_apply] using tracks.unopened later hlater

/-- What the other end does is not seen in an end's own counters. -/
theorem Tracks.congr {peerId : String} {roster roster' : Roster} {used used' : Source → Nat}
    {side : Side} {node : Node} (tracks : Tracks key peerId roster used side node)
    (links : roster'.links side = roster.links side)
    (opened : roster'.opened side = roster.opened side)
    (same : ∀ session, used' ⟨side, session⟩ = used ⟨side, session⟩) :
    Tracks key peerId roster' used' side node where
  encrypts := tracks.encrypts
  keyed := by
    rw [same]
    exact tracks.keyed
  opened := by
    rw [links, opened, same]
    exact tracks.opened
  unopened later hlater := by
    rw [opened] at hlater
    rw [same]
    exact tracks.unopened later hlater

/-- The counters after one operation. -/
def usedAfter (roster : Roster) (used : Source → Nat) : EndOp → Source → Nat
  | .send side _ => Stamp.count used (roster.source side)
  | .relink _ _ | .reopen _ _ _ => used

variable (primitives) in
/-- Every operation keeps both ends on the roster. -/
theorem next_tracks {ends : Ends} {roster : Roster} {used : Source → Nat}
    (tracks : ∀ side, Tracks key (peer side) roster used side (ends side))
    (op : EndOp) (content : Content) (side : Side) :
    Tracks key (peer side) (roster.next op) (usedAfter roster used op) side
      (ends.next primitives peer op content side) := by
  cases op with
  | send sender msgType =>
      by_cases here : side = sender
      · subst here
        rw [next, Function.update_self]
        exact (tracks side).sendRaw msgType content.payload content.io
      · rw [next, Function.update_of_ne here]
        apply (tracks side).congr rfl rfl
        intro session
        apply Function.update_of_ne
        intro same
        exact here (congrArg Source.side same)
  | relink sender links =>
      by_cases here : side = sender
      · subst here
        obtain ⟨session, hsession, _, hseq⟩ := (tracks side).opened
        rw [next, Function.update_self, relink, hsession]
        refine ⟨(tracks side).encrypts, (tracks side).keyed, ⟨_, AList.lookup_insert _, ?_, hseq⟩,
          (tracks side).unopened⟩
        simp [Roster.next]
      · rw [next, Function.update_of_ne here]
        exact (tracks side).congr (Function.update_of_ne here _ _) rfl fun _ => rfl
  | reopen sender links sessionId =>
      by_cases here : side = sender
      · subst here
        have hopened : (roster.next (.reopen side links sessionId)).opened side =
            roster.opened side + 1 := Function.update_self _ _ _
        rw [next, Function.update_self]
        refine ⟨(tracks side).encrypts, (tracks side).keyed, ⟨_, AList.lookup_insert _, ?_, ?_⟩, ?_⟩
        · simp [Roster.next]
        · rw [hopened, usedAfter, (tracks side).unopened _ (Nat.lt_succ_self _)]
          rfl
        · intro later hlater
          rw [hopened] at hlater
          exact (tracks side).unopened later (by omega)
      · rw [next, Function.update_of_ne here]
        exact (tracks side).congr (Function.update_of_ne here _ _) (Function.update_of_ne here _ _)
          fun _ => rfl

/-! ## The calls of a run, from its schedule -/

/-- The payloads a run sends. -/
def payloads : List (EndOp × Content) → List Bytes
  | [] => []
  | (.send _ _, content) :: rest => content.payload :: payloads rest
  | (.relink _ _, _) :: rest | (.reopen _ _ _, _) :: rest => payloads rest

/-- The numbers that the sends of a schedule encrypt under. -/
def numbers (roster : Roster) (used : Source → Nat) (schedule : List EndOp) : List UInt16 :=
  (Stamp.stamp used (roster.sources schedule)).map fun use => UInt16.ofNat use.2

/-- The calls that encrypt each payload under its number. -/
def callsUnder (primitives : Primitives) (key : Bytes) (numbers : List UInt16)
    (payloads : List Bytes) : List Encryption :=
  (numbers.zip payloads).filterMap fun pair =>
    packEncryption primitives pair.2 (some key) true pair.1

/-- A run encrypts its payloads under the numbers of its schedule. -/
theorem encryptions_eq {ends : Ends} {roster : Roster} {used : Source → Nat}
    (tracks : ∀ side, Tracks key (peer side) roster used side (ends side))
    (steps : List (EndOp × Content)) :
    ends.encryptions primitives peer steps =
      callsUnder primitives key (numbers roster used (steps.map Prod.fst)) (payloads steps) := by
  induction steps generalizing ends roster used with
  | nil => rfl
  | cons step rest ih =>
      obtain ⟨op, content⟩ := step
      have hlater := ih (next_tracks primitives tracks op content)
      cases op with
      | send side msgType =>
          rw [encryptions, hlater, (tracks side).sendEncryption]
          simp only [callsUnder, numbers, List.map_cons, Roster.sources, Stamp.stamp, payloads,
            List.zip_cons_cons, List.filterMap_cons]
          cases packEncryption primitives content.payload (some key) true
            (UInt16.ofNat (used (roster.source side))) <;> rfl
      | relink side links => exact hlater
      | reopen side links sessionId => exact hlater

/-- A run sends one payload for each send of its schedule. -/
theorem length_payloads (roster : Roster) (steps : List (EndOp × Content)) :
    (payloads steps).length = (roster.sources (steps.map Prod.fst)).length := by
  induction steps generalizing roster with
  | nil => rfl
  | cons step rest ih =>
      obtain ⟨op, content⟩ := step
      cases op with
      | send side msgType => exact congrArg Nat.succ (ih roster)
      | relink side links => exact ih _
      | reopen side links sessionId => exact ih _

/-- Any payloads can be sent on a schedule. -/
theorem exists_steps (roster : Roster) (schedule : List EndOp) {bodies : List Bytes}
    (hlength : bodies.length = (roster.sources schedule).length) :
    ∃ steps : List (EndOp × Content), steps.map Prod.fst = schedule ∧ payloads steps = bodies := by
  have io : NodeIo := ⟨⟨0, fun _ => .ok ()⟩, ⟨0, fun _ => .ok ()⟩, .ok ()⟩
  induction schedule generalizing roster bodies with
  | nil => exact ⟨[], rfl, (List.length_eq_zero_iff.mp hlength).symm⟩
  | cons op rest ih =>
      cases op with
      | send side msgType =>
          cases bodies with
          | nil => cases hlength
          | cons body bodies =>
              obtain ⟨steps, rfl, rfl⟩ := ih _ (Nat.succ.inj hlength)
              exact ⟨(.send side msgType, ⟨body, io⟩) :: steps, rfl, rfl⟩
      | relink side links =>
          obtain ⟨steps, rfl, rfl⟩ := ih _ hlength
          exact ⟨(.relink side links, ⟨[], io⟩) :: steps, rfl, rfl⟩
      | reopen side links sessionId =>
          obtain ⟨steps, rfl, rfl⟩ := ih _ hlength
          exact ⟨(.reopen side links sessionId, ⟨[], io⟩) :: steps, rfl, rfl⟩

/-- A short payload is encrypted as it is. -/
theorem packEncryption_short {payload : Bytes} {seq : UInt16}
    (short : shouldCompress payload = false) :
    packEncryption primitives payload (some key) true seq = some ⟨key, seqNonce seq, payload⟩ := by
  simp [packEncryption, compressBody, short, pure, Except.pure]

/-- Every call is under the key and the nonce of its number. -/
theorem packEncryption_eq_some {payload : Bytes} {seq : UInt16} {call : Encryption}
    (hcall : packEncryption primitives payload (some key) true seq = some call) :
    call.nonce = seqNonce seq := by
  cases hbody : compressBody primitives payload true with
  | error e => simp [packEncryption, hbody] at hcall
  | ok result =>
      simp only [packEncryption, hbody, Option.some.injEq] at hcall
      rw [← hcall]

variable (primitives key) in
/-- Under given numbers, the nonces are unique for all payloads exactly when the
numbers are distinct. -/
theorem nonceUnique_callsUnder_iff (seqs : List UInt16) :
    (∀ bodies : List Bytes, bodies.length = seqs.length →
        NonceUnique (callsUnder primitives key seqs bodies)) ↔ seqs.Nodup := by
  constructor
  · intro unique
    induction seqs with
    | nil => exact List.nodup_nil
    | cons seq rest ih =>
        rw [List.nodup_cons]
        constructor
        · -- the same number again, under a different one-byte payload
          intro again
          have hclash := unique ([0] :: List.replicate rest.length [1]) (by simp)
          have hsecond : (⟨key, seqNonce seq, [1]⟩ : Encryption) ∈
              callsUnder primitives key rest (List.replicate rest.length [1]) := by
            rw [callsUnder, List.mem_filterMap]
            refine ⟨(seq, [1]), ?_, packEncryption_short rfl⟩
            obtain ⟨index, hindex, hget⟩ := List.getElem_of_mem again
            rw [List.mem_iff_getElem]
            exact ⟨index, by simpa using hindex, by simp [hget]⟩
          have hcalls : callsUnder primitives key (seq :: rest)
              ([0] :: List.replicate rest.length [1]) =
                ⟨key, seqNonce seq, [0]⟩ ::
                  callsUnder primitives key rest (List.replicate rest.length [1]) := by
            rw [callsUnder, List.zip_cons_cons, List.filterMap_cons,
              packEncryption_short (by rfl)]
            rfl
          rw [hcalls] at hclash
          have hbodies := (List.pairwise_cons.mp hclash).1 _ hsecond rfl rfl
          cases hbodies
        · apply ih
          intro bodies hlength
          have hall := unique ([0] :: bodies) (by simp [hlength])
          apply List.Pairwise.sublist ?_ hall
          rw [callsUnder, callsUnder, List.zip_cons_cons]
          exact (List.sublist_cons_self _ _).filterMap _
  · intro distinct bodies hlength
    have hpairs : (seqs.zip bodies).Pairwise fun first second => first.1 ≠ second.1 := by
      rw [← List.pairwise_map (f := Prod.fst) (R := (· ≠ ·)),
        List.map_fst_zip (by omega)]
      exact distinct
    apply hpairs.filterMap
    intro first second hne call hcall other hother _ hnonce
    rw [packEncryption_eq_some hcall, packEncryption_eq_some hother] at hnonce
    exact absurd (seqNonce_inj.mp hnonce) hne

/-- Numbers are distinct on the wire when their residues are. -/
theorem nodup_numbers_iff (roster : Roster) (used : Source → Nat) (schedule : List EndOp) :
    (numbers roster used schedule).Nodup ↔
      ((Stamp.stamp used (roster.sources schedule)).map fun use => use.2 % 65536).Nodup := by
  have hresidues : (numbers roster used schedule).map UInt16.toNat =
      (Stamp.stamp used (roster.sources schedule)).map fun use => use.2 % 65536 := by
    rw [numbers, List.map_map]
    apply List.map_congr_left
    intro use _
    simp
  rw [← hresidues]
  refine (List.nodup_map_iff ?_).symm
  intro left right same
  exact UInt16.toNat_inj.mp same

/-- Two ends that start under a fresh key never use a nonce on two plaintexts,
whatever they send on a schedule, exactly when all of the schedule's sends use
one counter and there are at most 65536 of them. -/
theorem nonceUnique_iff {start : Ends} (paired : start.Paired peer key)
    (schedule : List EndOp) :
    (∀ steps : List (EndOp × Content), steps.map Prod.fst = schedule →
        NonceUnique (start.encryptions primitives peer steps)) ↔
      let sources := (Roster.ofEnds peer start).sources schedule
      (∀ first ∈ sources, ∀ second ∈ sources, first = second) ∧ sources.length ≤ 65536 := by
  have tracks : ∀ side, Tracks key (peer side) (Roster.ofEnds peer start) (fun _ => 0) side
      (start side) := by
    intro side
    obtain ⟨state, hstate⟩ := paired.keyed side
    obtain ⟨session, hsession, hseq⟩ := paired.opened side
    exact ⟨paired.encrypts side, ⟨_, hstate, rfl, rfl⟩,
      ⟨session, hsession, by simp [Roster.ofEnds, hsession], by rw [hseq]; rfl⟩, fun _ _ => rfl⟩
  show _ ↔ _ ∧ _
  rw [← Stamp.nodup_residues_iff (by decide), ← nodup_numbers_iff,
    ← nonceUnique_callsUnder_iff primitives key]
  constructor
  · intro unique bodies hlength
    have hbodies : bodies.length = ((Roster.ofEnds peer start).sources schedule).length := by
      simpa [numbers] using hlength
    obtain ⟨steps, hschedule, hpayloads⟩ := exists_steps (Roster.ofEnds peer start) schedule hbodies
    have hrun := unique steps hschedule
    rwa [encryptions_eq tracks, hschedule, hpayloads] at hrun
  · intro unique steps hschedule
    rw [encryptions_eq tracks, hschedule]
    apply unique
    rw [length_payloads (Roster.ofEnds peer start), hschedule]
    simp [numbers]

/-! ## One message each way -/

/-- Two nodes that know each other as "peer", over one link, under one key. -/
def onOneLink (key : Bytes) : Ends := fun _ =>
  { Node.new "peer" true [] with
    sessions := ⟨AList.insert "peer"
      { Session.new "peer" 0 with links := [Link.new "tcp:0" 0 .tcp ⟨10000000⟩ 0] } ∅⟩
    connections := AList.insert "peer" 0 ∅
    peerStates := AList.insert "peer"
      { PeerState.new with state := .connected, aesKey := some key } ∅ }

theorem onOneLink_paired (key : Bytes) : (onOneLink key).Paired (fun _ => "peer") key where
  encrypts _ := rfl
  keyed _ := ⟨.connected, rfl⟩
  opened _ := ⟨_, rfl, rfl⟩

/-- Send one payload, and every write succeeds. -/
def sendOne (side : Side) (payload : Bytes) : EndOp × Content :=
  (.send side .message, ⟨payload, ⟨⟨0, fun _ => .ok ()⟩, ⟨0, fun _ => .ok ()⟩, .ok ()⟩⟩)

/-- One message each way, and nonce zero has encrypted both. -/
theorem not_nonceUnique_one_each_way :
    let key := List.replicate 32 7
    let start := onOneLink key
    let calls := start.encryptions .transparent (fun _ => "peer")
      [sendOne .left [104, 105], sendOne .right [121, 111]]
    start.Paired (fun _ => "peer") key ∧
      calls = [⟨key, seqNonce 0, [104, 105]⟩, ⟨key, seqNonce 0, [121, 111]⟩] ∧
      ¬ NonceUnique calls := by
  refine ⟨onOneLink_paired _, by decide, ?_⟩
  intro unique
  have hsame := (List.pairwise_cons.mp unique).1 _ (List.mem_singleton_self _) rfl rfl
  cases hsame

/-- The characterization for one message each way. -/
theorem nonceUnique_iff_one_each_way :
    (∀ steps : List (EndOp × Content),
        steps.map Prod.fst = [.send .left .message, .send .right .message] →
        NonceUnique ((onOneLink (List.replicate 32 7)).encryptions .transparent
          (fun _ => "peer") steps)) ↔
      let sources := (Roster.ofEnds (fun _ => "peer") (onOneLink (List.replicate 32 7))).sources
        [.send .left .message, .send .right .message]
      (∀ first ∈ sources, ∀ second ∈ sources, first = second) ∧ sources.length ≤ 65536 :=
  nonceUnique_iff (onOneLink_paired _) _

end Ends

end Mlink.Core
