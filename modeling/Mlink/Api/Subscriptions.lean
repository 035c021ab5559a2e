/-
# The table of subscriptions

The manager keeps a map from topics to lists of peers, and nothing in the type of that
map says that a peer stands in a list once, or that a list is not empty. Its operations
see to it: they do on the map what is done on lists that cannot be otherwise. A run
leaves the subscriptions that its calls define, and all queries are views of them.
-/

import Mlink.Api.PubSub
import Mlink.Lib.Lookup
import Mathlib.Data.List.DropRight

namespace Mlink.Api

structure SubscriptionTable where
  subscriptions : AList fun _ : String => List String

namespace SubscriptionTable

def new : SubscriptionTable := ⟨∅⟩

variable (table : SubscriptionTable) (topic peerId : String)

def subscribe : SubscriptionTable :=
  let list := (table.subscriptions.lookup topic).getD []
  ⟨table.subscriptions.insert topic (if peerId ∈ list then list else list ++ [peerId])⟩

def unsubscribe : SubscriptionTable :=
  match table.subscriptions.lookup topic with
  | none => table
  | some list =>
      let kept := list.filter (· ≠ peerId)
      if kept = [] then ⟨table.subscriptions.erase topic⟩
      else ⟨table.subscriptions.insert topic kept⟩

def subscribers : List String := (table.subscriptions.lookup topic).getD []

def topics : List String := table.subscriptions.keys

def topicsForPeer : List String :=
  (table.subscriptions.entries.filter fun entry => peerId ∈ entry.2).map Sigma.fst

/-- The peer is taken out of every list first; the topics whose lists are empty then go
afterwards. -/
def removePeer : SubscriptionTable :=
  let retained := Lookup.mapValues table.subscriptions fun peers => peers.filter (· ≠ peerId)
  let emptyTopics := (retained.entries.filter fun entry => entry.2 = []).map Sigma.fst
  ⟨emptyTopics.foldl (fun subscriptions topic => subscriptions.erase topic) retained⟩

def isSubscribed : Bool :=
  ((table.subscriptions.lookup topic).map fun peers => peers.any (· = peerId)).getD false

def topicCount : Nat := table.subscriptions.entries.length

end SubscriptionTable

/-! ## The relation that the calls define -/

inductive SubscriptionCall
  | subscribe (topic peerId : String)
  | unsubscribe (topic peerId : String)
  | removePeer (peerId : String)
  deriving DecidableEq, Repr

namespace SubscriptionCall

/-- The call ends a subscription of the peer to the topic. -/
def ends (topic peerId : String) : SubscriptionCall → Bool
  | subscribe _ _ => false
  | unsubscribe other otherId => topic = other && peerId = otherId
  | removePeer otherId => peerId = otherId

/-- The peer has subscribed to the topic, and no call has ended that since. -/
def Subscribed (calls : List SubscriptionCall) (topic peerId : String) : Prop :=
  subscribe topic peerId ∈ calls.rtakeWhile fun call => !call.ends topic peerId

theorem subscribed_concat (calls : List SubscriptionCall) (call : SubscriptionCall)
    (topic peerId : String) :
    Subscribed (calls ++ [call]) topic peerId ↔
      call.ends topic peerId = false ∧
        (Subscribed calls topic peerId ∨ call = subscribe topic peerId) := by
  rw [Subscribed, List.rtakeWhile_concat]
  cases call.ends topic peerId with
  | true => simp
  | false => simp [Subscribed, eq_comm]

end SubscriptionCall

namespace PubSubManager

def perform (manager : PubSubManager) : SubscriptionCall → PubSubManager
  | .subscribe topic peerId => manager.subscribe topic peerId
  | .unsubscribe topic peerId => manager.unsubscribe topic peerId
  | .removePeer peerId => manager.removePeer peerId

/-- The manager after a run. -/
def after (calls : List SubscriptionCall) : PubSubManager := calls.foldl perform new

variable (manager : PubSubManager)

/-- Subscribing to a topic leaves the other ones. -/
theorem subscribers_subscribe_of_ne {topic other : String} (hne : other ≠ topic)
    (peerId : String) :
    (manager.subscribe topic peerId).subscribers other = manager.subscribers other := by
  rw [subscribe]
  cases manager.subscriptions.lookup topic with
  | none => rw [subscribers, AList.lookup_insert_ne hne, subscribers]
  | some list => rw [subscribers, AList.lookup_insert_ne hne, subscribers]

/-- A peer stands in a list after a run as its calls say. -/
theorem mem_subscribers_after (calls : List SubscriptionCall) (topic peerId : String) :
    peerId ∈ (after calls).subscribers topic ↔
      SubscriptionCall.Subscribed calls topic peerId := by
  induction calls using List.reverseRecOn with
  | nil => exact iff_of_false List.not_mem_nil List.not_mem_nil
  | append_singleton calls call ih =>
      rw [after, List.foldl_concat, SubscriptionCall.subscribed_concat, ← ih, ← after]
      cases call with
      | subscribe other otherId =>
          rw [perform]
          by_cases htopic : topic = other
          · subst htopic
            rw [subscribers_subscribe]
            split_ifs with hmem
            · simp only [SubscriptionCall.ends, true_and, SubscriptionCall.subscribe.injEq]
              exact ⟨.inl, fun hor => hor.elim id fun heq => heq ▸ hmem⟩
            · simp [SubscriptionCall.ends, eq_comm]
          · rw [subscribers_subscribe_of_ne _ htopic]
            simp [SubscriptionCall.ends, Ne.symm htopic]
      | unsubscribe other otherId =>
          rw [perform, subscribers_unsubscribe]
          by_cases htopic : topic = other
          · simp [SubscriptionCall.ends, htopic, and_comm]
          · simp [SubscriptionCall.ends, htopic]
      | removePeer otherId =>
          rw [perform, subscribers_removePeer]
          simp [SubscriptionCall.ends, and_comm]

end PubSubManager

/-! ## The table keeps the lists of the manager -/

namespace SubscriptionTable

def perform (table : SubscriptionTable) : SubscriptionCall → SubscriptionTable
  | .subscribe topic peerId => table.subscribe topic peerId
  | .unsubscribe topic peerId => table.unsubscribe topic peerId
  | .removePeer peerId => table.removePeer peerId

/-- The table after a run. -/
def after (calls : List SubscriptionCall) : SubscriptionTable := calls.foldl perform new

/-- The table holds the lists that are not empty. -/
def Keeps (table : SubscriptionTable) (manager : PubSubManager) : Prop :=
  ∀ topic, table.subscriptions.lookup topic =
    if manager.subscribers topic = [] then none else some (manager.subscribers topic)

section Simulation

variable {table : SubscriptionTable} {manager : PubSubManager}

theorem Keeps.subscribers_eq (keeps : table.Keeps manager) (topic : String) :
    table.subscribers topic = manager.subscribers topic := by
  rw [subscribers, keeps topic]
  split_ifs with hempty
  · exact hempty.symm
  · rfl

theorem Keeps.subscribe (keeps : table.Keeps manager) (topic peerId : String) :
    (table.subscribe topic peerId).Keeps (manager.subscribe topic peerId) := by
  intro other
  rw [SubscriptionTable.subscribe, ← subscribers, keeps.subscribers_eq]
  by_cases hother : other = topic
  · rw [hother, AList.lookup_insert, PubSubManager.subscribers_subscribe]
    by_cases hmem : peerId ∈ manager.subscribers topic
    · rw [if_pos hmem, if_neg (List.ne_nil_of_mem hmem)]
    · rw [if_neg hmem, if_neg (List.append_ne_nil_of_right_ne_nil _ (List.cons_ne_nil _ _))]
  · rw [AList.lookup_insert_ne hother, PubSubManager.subscribers_subscribe_of_ne _ hother]
    exact keeps other

theorem Keeps.unsubscribe (keeps : table.Keeps manager) (topic peerId : String) :
    (table.unsubscribe topic peerId).Keeps (manager.unsubscribe topic peerId) := by
  intro other
  rw [PubSubManager.subscribers_unsubscribe, SubscriptionTable.unsubscribe, keeps topic]
  by_cases hempty : manager.subscribers topic = []
  · rw [if_pos hempty]
    dsimp only
    rw [keeps other]
    by_cases hsame : other = topic
    · simp [hsame, hempty]
    · simp only [if_neg hsame]
  · rw [if_neg hempty]
    dsimp only
    by_cases hsame : other = topic
    · subst hsame
      rw [if_pos rfl]
      by_cases hkept : (manager.subscribers other).filter (· ≠ peerId) = []
      · rw [if_pos hkept, if_pos hkept, AList.lookup_erase]
      · rw [if_neg hkept, if_neg hkept, AList.lookup_insert]
    · rw [if_neg hsame, ← keeps other]
      split_ifs with hkept
      · exact AList.lookup_erase_ne hsame
      · exact AList.lookup_insert_ne hsame

/-- What the second half of a removal erases is what the first half has emptied. -/
theorem lookup_erase_empty (entries : AList fun _ : String => List String) (topic : String) :
    (((entries.entries.filter fun entry => entry.2 = []).map Sigma.fst).foldl
        (fun entries topic => entries.erase topic) entries).lookup topic =
      (entries.lookup topic).filter fun peers => peers ≠ [] := by
  have hempty : topic ∈ (entries.entries.filter fun entry => entry.2 = []).map Sigma.fst ↔
      entries.lookup topic = some [] := by
    rw [List.mem_map, ← Option.mem_def, AList.mem_lookup_iff]
    constructor
    · rintro ⟨⟨first, peers⟩, hmem, rfl⟩
      obtain ⟨hentry, hpeers⟩ := List.mem_filter.mp hmem
      have hnone : peers = [] := of_decide_eq_true hpeers
      exact hnone ▸ hentry
    · intro hmem
      exact ⟨⟨topic, []⟩, by simpa using hmem, rfl⟩
  rw [Lookup.lookup_foldl_erase]
  by_cases hlookup : entries.lookup topic = some []
  · rw [if_pos (hempty.mpr hlookup), hlookup]
    rfl
  · rw [if_neg (mt hempty.mp hlookup)]
    cases hpeers : entries.lookup topic with
    | none => rfl
    | some peers =>
        have hsome : peers ≠ [] := fun heq => hlookup (heq ▸ hpeers)
        simp [Option.filter, hsome]

theorem Keeps.removePeer (keeps : table.Keeps manager) (peerId : String) :
    (table.removePeer peerId).Keeps (manager.removePeer peerId) := by
  intro topic
  rw [PubSubManager.subscribers_removePeer, SubscriptionTable.removePeer]
  dsimp only
  rw [lookup_erase_empty, Lookup.lookup_mapValues, keeps topic]
  by_cases hempty : manager.subscribers topic = []
  · simp [hempty]
  · by_cases hkept : (manager.subscribers topic).filter (· ≠ peerId) = []
    · rw [if_neg hempty, if_pos hkept, Option.map_some, hkept]
      rfl
    · rw [if_neg hempty, if_neg hkept, Option.map_some, Option.filter, if_pos (by simpa using hkept)]

theorem keeps_after (calls : List SubscriptionCall) :
    (after calls).Keeps (PubSubManager.after calls) := by
  induction calls using List.reverseRecOn with
  | nil => exact fun topic => rfl
  | append_singleton calls call ih =>
      rw [after, PubSubManager.after, List.foldl_concat, List.foldl_concat]
      cases call with
      | subscribe topic peerId => exact ih.subscribe topic peerId
      | unsubscribe topic peerId => exact ih.unsubscribe topic peerId
      | removePeer peerId => exact ih.removePeer peerId

/-- A topic is kept as long as its list is not empty. -/
theorem Keeps.mem_topics_iff (keeps : table.Keeps manager) (topic : String) :
    topic ∈ table.topics ↔ table.subscribers topic ≠ [] := by
  rw [topics, ← AList.mem_keys, ← AList.lookup_isSome, keeps.subscribers_eq, keeps topic]
  split_ifs with hempty <;> simp [hempty]

/-- Removing a peer takes it out of every list and leaves the others in it. -/
theorem Keeps.subscribers_removePeer_eq (keeps : table.Keeps manager) (peerId topic : String) :
    (table.removePeer peerId).subscribers topic =
      (table.subscribers topic).filter (· ≠ peerId) := by
  rw [(keeps.removePeer peerId).subscribers_eq, PubSubManager.subscribers_removePeer,
    keeps.subscribers_eq]

/-- A topic is listed for a peer that its list holds. -/
theorem mem_topicsForPeer (table : SubscriptionTable) (topic peerId : String) :
    topic ∈ table.topicsForPeer peerId ↔ peerId ∈ table.subscribers topic := by
  have hlist : peerId ∈ table.subscribers topic ↔
      ∃ peers ∈ table.subscriptions.lookup topic, peerId ∈ peers := by
    rw [subscribers]
    cases table.subscriptions.lookup topic <;> simp
  rw [hlist, topicsForPeer, List.mem_map]
  constructor
  · rintro ⟨⟨first, peers⟩, hmem, rfl⟩
    obtain ⟨hentry, hpeer⟩ := List.mem_filter.mp hmem
    exact ⟨peers, AList.mem_lookup_iff.mpr hentry, by simpa using hpeer⟩
  · rintro ⟨peers, hentry, hpeer⟩
    exact ⟨⟨topic, peers⟩, List.mem_filter.mpr ⟨AList.mem_lookup_iff.mp hentry, by simpa using hpeer⟩,
      rfl⟩

theorem nodup_topicsForPeer (table : SubscriptionTable) (peerId : String) :
    (table.topicsForPeer peerId).Nodup :=
  table.subscriptions.keys_nodup.sublist (List.filter_sublist.map Sigma.fst)

theorem isSubscribed_iff (table : SubscriptionTable) (topic peerId : String) :
    table.isSubscribed topic peerId = true ↔ peerId ∈ table.subscribers topic := by
  rw [isSubscribed, subscribers]
  cases table.subscriptions.lookup topic <;> simp

/-- After any run the table is the relation that its calls define. All queries are views of
it, no subscriber is listed twice, and every topic that is kept has one. A peer that is
removed is then under no topic, and every list keeps the others as they were. -/
theorem relation_after (calls : List SubscriptionCall) :
    let table := after calls
    let Subscribed := SubscriptionCall.Subscribed calls
    (∀ topic peerId,
      (peerId ∈ table.subscribers topic ↔ Subscribed topic peerId) ∧
      (topic ∈ table.topicsForPeer peerId ↔ Subscribed topic peerId) ∧
      (table.isSubscribed topic peerId = true ↔ Subscribed topic peerId)) ∧
    (∀ topic, (table.subscribers topic).Nodup ∧
      (topic ∈ table.topics ↔ ∃ peerId, Subscribed topic peerId) ∧
      (topic ∈ table.topics ↔ table.subscribers topic ≠ [])) ∧
    (∀ peerId, (table.topicsForPeer peerId).Nodup) ∧
    table.topics.Nodup ∧ table.topicCount = table.topics.length ∧
    ∀ peerId topic,
      peerId ∉ (table.removePeer peerId).subscribers topic ∧
      topic ∉ (table.removePeer peerId).topicsForPeer peerId ∧
      (table.removePeer peerId).subscribers topic =
        (table.subscribers topic).filter (· ≠ peerId) := by
  intro table Subscribed
  have keeps : table.Keeps (PubSubManager.after calls) := keeps_after calls
  have hmem : ∀ topic peerId, peerId ∈ table.subscribers topic ↔ Subscribed topic peerId := by
    intro topic peerId
    rw [keeps.subscribers_eq]
    exact PubSubManager.mem_subscribers_after calls topic peerId
  have hgone : ∀ peerId topic, peerId ∉ (table.removePeer peerId).subscribers topic := by
    intro peerId topic
    rw [keeps.subscribers_removePeer_eq]
    simp
  refine ⟨?_, ?_, nodup_topicsForPeer table, table.subscriptions.keys_nodup, ?_, ?_⟩
  · intro topic peerId
    rw [mem_topicsForPeer, isSubscribed_iff, hmem]
    exact ⟨.rfl, .rfl, .rfl⟩
  · intro topic
    refine ⟨?_, ?_, keeps.mem_topics_iff topic⟩
    · rw [keeps.subscribers_eq]
      exact PubSubManager.nodup_subscribers _ _
    · rw [keeps.mem_topics_iff]
      constructor
      · intro hsome
        obtain ⟨peerId, hpeer⟩ := List.exists_mem_of_ne_nil _ hsome
        exact ⟨peerId, (hmem topic peerId).mp hpeer⟩
      · rintro ⟨peerId, hsubscribed⟩
        exact List.ne_nil_of_mem ((hmem topic peerId).mpr hsubscribed)
  · rw [topicCount, topics, AList.keys, List.keys, List.length_map]
  · intro peerId topic
    rw [mem_topicsForPeer]
    exact ⟨hgone peerId topic, hgone peerId topic, keeps.subscribers_removePeer_eq peerId topic⟩

end Simulation

end SubscriptionTable

end Mlink.Api
