/-
# Sending one message to many peers

A publication goes to the subscribers of its topic and a broadcast to every peer
that the node knows. Both write to one recipient after the other and give up at the
first write that fails. The daemon's `send` request goes through the same kind of
list and carries on.
-/

import Mlink.Daemon.Send

namespace Mlink.Api

open Mlink.Core Mlink.Protocol

/-! ## Subscriptions -/

/-- The peers subscribed to a topic, each once; a topic without subscribers is not
kept. -/
structure Subscribers where
  peers : List String
  nodup : peers.Nodup
  nonempty : peers ≠ []

namespace Subscribers

def single (peerId : String) : Subscribers := ⟨[peerId], List.nodup_singleton _, by simp⟩

/-- A new subscriber comes last. -/
def add (list : Subscribers) (peerId : String) : Subscribers :=
  if hmem : peerId ∈ list.peers then list
  else
    { peers := list.peers ++ [peerId]
      nodup := List.nodup_append.mpr ⟨list.nodup, List.nodup_singleton _, by
        rintro peer hpeer other hother rfl
        exact hmem (List.mem_singleton.mp hother ▸ hpeer)⟩
      nonempty := by simp }

/-- The other subscribers, if there are any. -/
def without (list : Subscribers) (peerId : String) : Option Subscribers :=
  if hempty : list.peers.filter (· ≠ peerId) = [] then none
  else some ⟨list.peers.filter (· ≠ peerId), list.nodup.filter _, hempty⟩

end Subscribers

structure PubSubManager where
  subscriptions : AList fun _ : String => Subscribers

namespace PubSubManager

def new : PubSubManager := ⟨∅⟩

variable (manager : PubSubManager) (topic peerId : String)

def subscribe : PubSubManager :=
  match manager.subscriptions.lookup topic with
  | none => ⟨manager.subscriptions.insert topic (.single peerId)⟩
  | some list => ⟨manager.subscriptions.insert topic (list.add peerId)⟩

def unsubscribe : PubSubManager :=
  match manager.subscriptions.lookup topic with
  | none => manager
  | some list =>
      match list.without peerId with
      | none => ⟨manager.subscriptions.erase topic⟩
      | some rest => ⟨manager.subscriptions.insert topic rest⟩

/-- The peer leaves every topic. -/
def removePeer : PubSubManager :=
  manager.subscriptions.keys.foldl (fun manager topic => manager.unsubscribe topic peerId) manager

def subscribers : List String := (manager.subscriptions.lookup topic).elim [] Subscribers.peers

theorem nodup_subscribers : (manager.subscribers topic).Nodup := by
  rw [subscribers]
  cases manager.subscriptions.lookup topic with
  | none => exact List.nodup_nil
  | some list => exact list.nodup

/-- A peer that subscribes comes last, unless it is there already. -/
theorem subscribers_subscribe :
    (manager.subscribe topic peerId).subscribers topic =
      if peerId ∈ manager.subscribers topic then manager.subscribers topic
      else manager.subscribers topic ++ [peerId] := by
  rw [subscribe, subscribers]
  cases hlist : manager.subscriptions.lookup topic with
  | none => simp [subscribers, hlist, Subscribers.single]
  | some list =>
      by_cases hmem : peerId ∈ list.peers
      · simp [subscribers, hlist, Subscribers.add, hmem]
      · simp [subscribers, hlist, Subscribers.add, hmem]

theorem peers_without (list : Subscribers) :
    (list.without peerId).elim [] Subscribers.peers = list.peers.filter (· ≠ peerId) := by
  rw [Subscribers.without]
  split_ifs with hempty
  · exact hempty.symm
  · rfl

/-- A peer that unsubscribes leaves this topic and no other. -/
theorem subscribers_unsubscribe (other : String) :
    (manager.unsubscribe topic peerId).subscribers other =
      if other = topic then (manager.subscribers other).filter (· ≠ peerId)
      else manager.subscribers other := by
  by_cases hother : other = topic
  · subst hother
    rw [if_pos rfl]
    cases hlist : manager.subscriptions.lookup other with
    | none => simp [subscribers, unsubscribe, hlist]
    | some list =>
        have hhere : manager.subscribers other = list.peers := by rw [subscribers, hlist]; rfl
        rw [hhere, ← peers_without]
        cases hrest : list.without peerId with
        | none => simp [subscribers, unsubscribe, hlist, hrest]
        | some rest => simp [subscribers, unsubscribe, hlist, hrest]
  · rw [if_neg hother]
    cases hlist : manager.subscriptions.lookup topic with
    | none => simp [unsubscribe, hlist]
    | some list =>
        cases hrest : list.without peerId with
        | none => simp [subscribers, unsubscribe, hlist, hrest, AList.lookup_erase_ne hother]
        | some rest => simp [subscribers, unsubscribe, hlist, hrest, AList.lookup_insert_ne hother]

/-- A peer that is removed is left out of every topic. -/
theorem subscribers_removePeer (other : String) :
    (manager.removePeer peerId).subscribers other =
      (manager.subscribers other).filter (· ≠ peerId) := by
  have hfold : ∀ (topics : List String) (manager : PubSubManager),
      (topics.foldl (fun manager topic => manager.unsubscribe topic peerId) manager).subscribers
          other =
        if other ∈ topics then (manager.subscribers other).filter (· ≠ peerId)
        else manager.subscribers other := by
    intro topics
    induction topics with
    | nil => exact fun _ => rfl
    | cons topic rest ih =>
        intro manager
        rw [List.foldl_cons, ih, subscribers_unsubscribe]
        by_cases hhere : other = topic <;> by_cases hlater : other ∈ rest <;>
          simp [hhere, hlater, List.filter_filter]
  rw [removePeer, hfold]
  split_ifs with hkey
  · rfl
  · have hnone : manager.subscriptions.lookup other = none :=
      AList.lookup_eq_none.mpr fun hmem => hkey (AList.mem_keys.mpr hmem)
    simp [subscribers, hnone]

end PubSubManager

structure PubSubMessage where
  topic : String
  data : Bytes
  deriving DecidableEq, Repr

/-! ## One recipient after the other -/

/-- What a fan-out returns, the node it leaves, and what it wrote to each recipient it
came to, in turn. -/
structure FanOut where
  result : Result Unit
  node : Node
  attempts : List (String × List Bytes)

section Sends

variable (primitives : Primitives) (encode : PubSubMessage → Except String Bytes) (node : Node)
  (io : String → NodeIo)

/-- Send to one recipient after the other until a send fails. -/
def sendEach (msgType : MessageType) (payload : Bytes) (node : Node) : List String → FanOut
  | [] => ⟨.ok (), node, []⟩
  | peerId :: rest =>
      let sent := node.sendRaw primitives peerId msgType payload (io peerId)
      match sent.result with
      | .error e => ⟨.error e, sent.node, [(peerId, sent.written)]⟩
      | .ok () =>
          let later := sendEach msgType payload sent.node rest
          ⟨later.result, later.node, (peerId, sent.written) :: later.attempts⟩

def encodePublish (topic : String) (data : Bytes) : Result Bytes :=
  (encode ⟨topic, data⟩).mapError fun e => .codecError s!"encode PubSubMessage: {e}"

def publish (pubsub : PubSubManager) (topic : String) (data : Bytes) : FanOut :=
  let subs := pubsub.subscribers topic
  if subs = [] then ⟨.ok (), node, []⟩
  else
    match encodePublish encode topic data with
    | .error e => ⟨.error e, node, []⟩
    | .ok payload => sendEach primitives io .publish payload node subs

/-- The peers that the node knows, in the order in which a hash map lists them. -/
structure PeerListing (node : Node) where
  ids : List String
  perm : ids.Perm node.peerIds

def broadcastMessage (peers : PeerListing node) (data : Bytes) : FanOut :=
  sendEach primitives io .message data node peers.ids

theorem PeerListing.nodup {node : Node} (peers : PeerListing node) : peers.ids.Nodup :=
  peers.perm.nodup_iff.mpr (AList.keys_nodup _)

/-! ## Reaching every recipient -/

/-- A send to this recipient alone gets through. -/
def GetsThrough (msgType : MessageType) (payload : Bytes) (peerId : String) : Prop :=
  (node.sendRaw primitives peerId msgType payload (io peerId)).result = .ok ()

/-- What a send to each recipient alone writes. -/
def onceEach (msgType : MessageType) (payload : Bytes) (peers : List String) :
    List (String × List Bytes) :=
  peers.map fun peerId =>
    (peerId, (node.sendRaw primitives peerId msgType payload (io peerId)).written)

/-- Each recipient is tried once, and what is written to it is the message, as if it
were the only recipient. -/
def ReachesEach (msgType : MessageType) (message : Result Bytes) (peers : List String)
    (attempts : List (String × List Bytes)) : Prop :=
  (attempts.map Prod.fst).Perm peers ∧
    ∀ attempt ∈ attempts, ∃ payload, message = .ok payload ∧
      attempt.2 = (node.sendRaw primitives attempt.1 msgType payload (io attempt.1)).written

variable {primitives encode node io} {msgType : MessageType} {payload : Bytes}

theorem reachesEach_onceEach (peers : List String) :
    ReachesEach primitives node io msgType (.ok payload) peers
      (onceEach primitives node io msgType payload peers) := by
  constructor
  · rw [onceEach, List.map_map]
    have hid : (Prod.fst ∘ fun peerId =>
        (peerId, (node.sendRaw primitives peerId msgType payload (io peerId)).written)) = id := rfl
    rw [hid, List.map_id]
  · intro attempt hattempt
    obtain ⟨peerId, _, rfl⟩ := List.mem_map.mp hattempt
    exact ⟨payload, rfl, rfl⟩

/-- Fewer attempts than recipients leave somebody out. -/
theorem not_reachesEach_of_length_lt {message : Result Bytes} {peers : List String}
    {attempts : List (String × List Bytes)} (short : attempts.length < peers.length) :
    ¬ ReachesEach primitives node io msgType message peers attempts := by
  intro reaches
  have hlength := reaches.1.length_eq
  rw [List.length_map] at hlength
  omega

/-- A send to a peer changes nothing for recipients that come later. -/
theorem onceEach_of_sent {peerId : String} {rest : List String} (fresh : peerId ∉ rest) :
    onceEach primitives (node.sendRaw primitives peerId msgType payload (io peerId)).node io
        msgType payload rest =
      onceEach primitives node io msgType payload rest := by
  apply List.map_congr_left
  intro other hother
  have hne : other ≠ peerId := fun heq => fresh (heq ▸ hother)
  rw [((Node.sameFor_sendRaw hne).sendRaw msgType payload (io other)).2]

/-- A send to a peer decides nothing about the sends to others. -/
theorem getsThrough_of_sent {peerId other : String} (hne : other ≠ peerId) :
    GetsThrough primitives (node.sendRaw primitives peerId msgType payload (io peerId)).node io
        msgType payload other ↔
      GetsThrough primitives node io msgType payload other := by
  rw [GetsThrough, GetsThrough, ((Node.sameFor_sendRaw hne).sendRaw msgType payload (io other)).1]

/-- When every send but the last gets through, every recipient has its turn. -/
theorem attempts_sendEach_of_getsThrough {peers : List String} (distinct : peers.Nodup)
    (through : ∀ peerId ∈ peers.dropLast, GetsThrough primitives node io msgType payload peerId) :
    (sendEach primitives io msgType payload node peers).attempts =
      onceEach primitives node io msgType payload peers := by
  induction peers generalizing node with
  | nil => rfl
  | cons peerId rest ih =>
      obtain ⟨hfresh, hrest⟩ := List.nodup_cons.mp distinct
      cases hsent : (node.sendRaw primitives peerId msgType payload (io peerId)).result with
      | error e =>
          cases rest with
          | nil => simp only [sendEach, hsent, onceEach, List.map_cons, List.map_nil]
          | cons second others =>
              have hfirst : GetsThrough primitives node io msgType payload peerId :=
                through peerId List.mem_cons_self
              rw [GetsThrough, hsent] at hfirst
              cases hfirst
      | ok value =>
          have hlater := ih hrest fun other hother => by
            have hne : other ≠ peerId := fun heq =>
              hfresh (heq ▸ List.mem_of_mem_dropLast hother)
            rw [getsThrough_of_sent hne]
            apply through
            cases rest with
            | nil => cases hother
            | cons second others => exact List.mem_cons_of_mem _ hother
          simp only [sendEach, hsent]
          rw [hlater, onceEach_of_sent hfresh]
          rfl

/-- A send that fails before the last recipient leaves the later ones without a turn. -/
theorem length_attempts_sendEach_lt {peers : List String} (distinct : peers.Nodup)
    {failing : String} (before : failing ∈ peers.dropLast)
    (fails : ¬ GetsThrough primitives node io msgType payload failing) :
    (sendEach primitives io msgType payload node peers).attempts.length < peers.length := by
  induction peers generalizing node with
  | nil => cases before
  | cons peerId rest ih =>
      obtain ⟨hfresh, hrest⟩ := List.nodup_cons.mp distinct
      cases rest with
      | nil => cases before
      | cons second others =>
          cases hsent : (node.sendRaw primitives peerId msgType payload (io peerId)).result with
          | error e =>
              rw [sendEach]
              simp only [hsent, List.length_cons, List.length_nil]
              omega
          | ok value =>
              have hne : failing ≠ peerId := by
                rintro rfl
                exact fails hsent
              have hmem : failing ∈ (second :: others).dropLast :=
                (List.mem_cons.mp before).resolve_left hne
              have hlater := ih hrest hmem (mt (getsThrough_of_sent hne).mp fails)
              rw [sendEach]
              simp only [hsent, List.length_cons] at hlater ⊢
              omega

/-- A fan-out that gives up at the first failure reaches every recipient exactly when
no send before the last fails. -/
theorem reachesEach_sendEach_iff {peers : List String} (distinct : peers.Nodup) :
    ReachesEach primitives node io msgType (.ok payload) peers
        (sendEach primitives io msgType payload node peers).attempts ↔
      ∀ peerId ∈ peers.dropLast, GetsThrough primitives node io msgType payload peerId := by
  constructor
  · intro reaches peerId hpeer
    by_contra hfails
    exact not_reachesEach_of_length_lt (length_attempts_sendEach_lt distinct hpeer hfails) reaches
  · intro hthrough
    rw [attempts_sendEach_of_getsThrough distinct hthrough]
    exact reachesEach_onceEach peers

/-- A publication reaches its subscribers when there are none, or when it encodes and
no send before the last fails. -/
theorem reachesEach_publish_iff (pubsub : PubSubManager) (topic : String) (data : Bytes) :
    ReachesEach primitives node io .publish (encodePublish encode topic data)
        (pubsub.subscribers topic) (publish primitives encode node io pubsub topic data).attempts ↔
      pubsub.subscribers topic = [] ∨
        ∃ payload, encodePublish encode topic data = .ok payload ∧
          ∀ peerId ∈ (pubsub.subscribers topic).dropLast,
            GetsThrough primitives node io .publish payload peerId := by
  rw [publish]
  by_cases hnobody : pubsub.subscribers topic = []
  · simp [hnobody, ReachesEach]
  · simp only [hnobody, if_false, false_or]
    cases encodePublish encode topic data with
    | error e =>
        apply iff_of_false
        · exact not_reachesEach_of_length_lt (List.length_pos_iff.mpr hnobody)
        · rintro ⟨payload, hpayload, _⟩
          cases hpayload
    | ok payload =>
        simp only [Except.ok.injEq, exists_eq_left']
        exact reachesEach_sendEach_iff (pubsub.nodup_subscribers topic)

variable (primitives io payload) in
/-- The daemon's loop gives every recipient its turn, whatever became of the earlier
ones. -/
theorem transmissions_foldl_write {peers : List String} (distinct : peers.Nodup)
    (tally : Daemon.SendTally) :
    (peers.foldl (Daemon.SendTally.write primitives payload io) tally).transmissions =
      tally.transmissions ++ onceEach primitives tally.node io .message payload peers := by
  induction peers generalizing tally with
  | nil => exact (List.append_nil _).symm
  | cons peerId rest ih =>
      obtain ⟨hfresh, hrest⟩ := List.nodup_cons.mp distinct
      rw [List.foldl_cons, ih hrest, Daemon.transmissions_write, Daemon.node_write,
        onceEach_of_sent hfresh, List.append_assoc]
      rfl

theorem transmissions_sendToAll {peers : List String} (distinct : peers.Nodup)
    (id : Option String) :
    (Daemon.sendToAll primitives node id payload io peers).transmissions =
      onceEach primitives node io .message payload peers := by
  have htally := transmissions_foldl_write primitives io payload distinct ⟨node, 0, none, []⟩
  rw [List.nil_append] at htally
  rw [Daemon.sendToAll]
  by_cases hnobody : peers = []
  · rw [if_pos hnobody, hnobody]
    rfl
  · rw [if_neg hnobody]
    dsimp only
    split
    · exact htally
    · exact htally

variable (primitives encode node io) in
/-- The three ways to send to many peers. The daemon's reaches every recipient; a
publication and a broadcast reach every recipient exactly when no send before the last
fails. -/
theorem fanOuts_reachEach_iff (pubsub : PubSubManager) (topic : String) (data : Bytes)
    (peers : PeerListing node) (id : Option String) :
    (ReachesEach primitives node io .publish (encodePublish encode topic data)
          (pubsub.subscribers topic)
          (publish primitives encode node io pubsub topic data).attempts ↔
        pubsub.subscribers topic = [] ∨
          ∃ payload, encodePublish encode topic data = .ok payload ∧
            ∀ peerId ∈ (pubsub.subscribers topic).dropLast,
              GetsThrough primitives node io .publish payload peerId) ∧
      (ReachesEach primitives node io .message (.ok data) peers.ids
          (broadcastMessage primitives node io peers data).attempts ↔
        ∀ peerId ∈ peers.ids.dropLast, GetsThrough primitives node io .message data peerId) ∧
      ReachesEach primitives node io .message (.ok data) peers.ids
        (Daemon.sendToAll primitives node id data io peers.ids).transmissions := by
  have hdaemon : ReachesEach primitives node io .message (.ok data) peers.ids
      (Daemon.sendToAll primitives node id data io peers.ids).transmissions := by
    rw [transmissions_sendToAll peers.nodup]
    exact reachesEach_onceEach peers.ids
  exact ⟨reachesEach_publish_iff pubsub topic data, reachesEach_sendEach_iff peers.nodup, hdaemon⟩

end Sends

/-! ## A broken link before a working one -/

/-- A node that is connected to two peers over one link each. -/
def withTwoPeers : Node :=
  { Node.new "a" false [] with
    connections := AList.insert "b" 0 (AList.insert "c" 1 ∅)
    peerStates := AList.insert "b" PeerState.new (AList.insert "c" PeerState.new ∅)
    peerManager := AList.insert "b" ⟨"b", "b", "b", 0, "ble"⟩
      (AList.insert "c" ⟨"c", "c", "c", 0, "ble"⟩ ∅) }

/-- Writes to the first peer fail and the others get through. -/
def brokenFirst (peerId : String) : NodeIo :=
  { first := ⟨0, fun _ => .ok ()⟩
    retry := ⟨0, fun _ => .ok ()⟩
    conn := if peerId = "b" then .error (.peerGone "b") else .ok () }

/-- Both peers are subscribed to the topic, the one with the broken link first. -/
def subscribedTwice : PubSubManager :=
  (PubSubManager.new.subscribe "news" "b").subscribe "news" "c"

/-- The second peer's link works, and neither a publication nor a broadcast is tried
there. -/
theorem not_reachesEach_brokenFirst :
    GetsThrough .transparent withTwoPeers brokenFirst .message [1] "c" ∧
      ¬ ReachesEach .transparent withTwoPeers brokenFirst .message (.ok [1])
          withTwoPeers.peerIds
          (broadcastMessage .transparent withTwoPeers brokenFirst ⟨_, .refl _⟩ [1]).attempts ∧
      GetsThrough .transparent withTwoPeers brokenFirst .publish [1] "c" ∧
      ¬ ReachesEach .transparent withTwoPeers brokenFirst .publish
          (encodePublish (fun message => .ok message.data) "news" [1])
          (subscribedTwice.subscribers "news")
          (publish .transparent (fun message => .ok message.data) withTwoPeers brokenFirst
            subscribedTwice "news" [1]).attempts := by
  have hbroadcast : (broadcastMessage .transparent withTwoPeers brokenFirst ⟨_, .refl _⟩
      [1]).attempts.length < withTwoPeers.peerIds.length := by decide +kernel
  have hpublish : (publish .transparent (fun message => .ok message.data) withTwoPeers brokenFirst
      subscribedTwice "news" [1]).attempts.length <
        (subscribedTwice.subscribers "news").length := by decide +kernel
  exact ⟨by rw [GetsThrough]; decide +kernel, not_reachesEach_of_length_lt hbroadcast,
    by rw [GetsThrough]; decide +kernel, not_reachesEach_of_length_lt hpublish⟩

end Mlink.Api
