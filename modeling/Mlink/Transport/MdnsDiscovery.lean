/-
# Discovery over mDNS

A listener advertises its port with its name, its room hash and its app uuid. Whoever
browses takes the services as they are resolved, in any order and any number of times,
each with some of its addresses, and makes one peer of all that come under one key. The
id of a peer is the text of an address, and that text is all that a later dial has.

Here the two ends are put together, with the room filter of the scanner behind them.
-/

import Mlink.Lib.Lookup
import Mlink.Lib.SocketAddr
import Mlink.Transport.HexCodec

namespace Mlink.Transport

open Mlink.Core Mlink.Protocol

/-- What the library keeps of a service. -/
structure ServiceInfo where
  fullname : String
  port : UInt16
  properties : AList fun _ : String => String
  deriving DecidableEq

/-- What the library reports while it browses. -/
inductive ServiceEvent
  | resolved (info : ServiceInfo) (addresses : List Ipv4Addr)
  | other
  deriving DecidableEq

/-- What a listener advertises. -/
structure Advertisement where
  port : UInt16
  localName : String
  roomHash : Option HashBytes
  appUuid : Option String
  deriving DecidableEq

namespace TcpTransport

def SERVICE_TYPE : String := "_mlink._tcp.local."

def LOOPBACK : Ipv4Addr := ⟨127, 0, 0, 1⟩

/-! ## Advertising -/

/-- A name with nothing in it but letters, digits and `-`. -/
def sanitizeInstance (name : String) : String :=
  let cleaned := name.map fun char => if char.isAlphanum || char = '-' then char else '-'
  if cleaned.isEmpty then "mlink" else cleaned

def instanceName (advertised : Advertisement) : String :=
  sanitizeInstance advertised.localName ++ "-" ++ toString advertised.port.toNat

/-- A property that may be missing. -/
def insertSome (txt : AList fun _ : String => String) (key : String) :
    Option String → AList fun _ : String => String
  | some value => txt.insert key value
  | none => txt

def registerService (advertised : Advertisement) : ServiceInfo where
  fullname := instanceName advertised ++ "." ++ SERVICE_TYPE
  port := advertised.port
  properties :=
    let txt := (∅ : AList fun _ : String => String).insert "name" advertised.localName
    let txt := insertSome txt "room" (advertised.roomHash.map fun hash => hexEncode hash.toList)
    insertSome txt "uuid" advertised.appUuid

/-! ## Browsing -/

/-- The service is our own: it has our app uuid. -/
def isOwn (selfUuid : Option String) (info : ServiceInfo) : Bool :=
  match selfUuid, info.properties.lookup "uuid" with
  | some mine, some theirs => mine = theirs
  | _, _ => false

def dedupKey (info : ServiceInfo) : String :=
  (info.properties.lookup "uuid").getD info.fullname

def metadata (info : ServiceInfo) : Bytes :=
  match info.properties.lookup "room" with
  | some hex =>
      match hexDecode8 hex with
      | .ok hash => hash.toList
      | .error _ => []
  | none => []

/-- The peer at an address of a service. -/
def peerAt (info : ServiceInfo) (address : Ipv4Addr) : DiscoveredPeer where
  id := SocketAddrV4.display ⟨address, info.port⟩
  name := (info.properties.lookup "name").getD info.fullname
  rssi := none
  metadata := metadata info

/-- The peer that an event tells of, and its key. -/
def surfaced (selfUuid : Option String) : ServiceEvent → Option (String × DiscoveredPeer)
  | .other => none
  | .resolved info addresses =>
      if isOwn selfUuid info then none
      else
        (addresses.find? fun address => address ≠ LOOPBACK).map fun address =>
          (dedupKey info, peerAt info address)

/-- The loop over the events that come in before the time is up. -/
def browse (selfUuid : Option String) (events : List ServiceEvent) :
    AList fun _ : String => DiscoveredPeer :=
  events.foldl
    (fun peers event =>
      match surfaced selfUuid event with
      | some entry => Lookup.insertNew peers entry
      | none => peers)
    ∅

/-- The peers that were found. In which order they are returned is up to the table. -/
def browseOnce (selfUuid : Option String) (events : List ServiceEvent) : List DiscoveredPeer :=
  (browse selfUuid events).entries.map Sigma.snd

/-! ## What a browser finds -/

section Found

variable {advertised : Advertisement} {selfUuid : Option String} {events : List ServiceEvent}
  {hashes : List HashBytes} {peer : DiscoveredPeer}

/-- The key under which its service is known. -/
def key (advertised : Advertisement) : String := dedupKey (registerService advertised)

/-- It is not our own, and it was resolved with an address of use. -/
def Reached (selfUuid : Option String) (events : List ServiceEvent) (advertised : Advertisement) :
    Prop :=
  (∀ mine ∈ selfUuid, mine ∉ advertised.appUuid) ∧
    ∃ addresses, .resolved (registerService advertised) addresses ∈ events ∧
      ∃ address ∈ addresses, address ≠ LOOPBACK

/-- The peer is the one that was advertised: a dial goes to one of its addresses and to its
port, and the scanner lets it pass if it is in one of the rooms or in none. -/
structure Tells (events : List ServiceEvent) (hashes : List HashBytes)
    (advertised : Advertisement) (peer : DiscoveredPeer) : Prop where
  dials : ∃ addresses address, .resolved (registerService advertised) addresses ∈ events ∧
    address ∈ addresses ∧ address ≠ LOOPBACK ∧
      SocketAddrV4.parse peer.id = some ⟨address, advertised.port⟩
  name : peer.name = advertised.localName
  passes : Scanner.metadataMatchesAnyRoom peer.metadata hashes = true ↔
    hashes = [] ∨ ∀ hash ∈ advertised.roomHash, hash ∈ hashes

/-- There is one peer for each key under which something was reached, and it is one that was
advertised under that key. -/
def Discovers (every : List Advertisement) (selfUuid : Option String) (events : List ServiceEvent)
    (hashes : List HashBytes) (peers : List DiscoveredPeer) : Prop :=
  ∃ keys : List String, keys.Nodup ∧
    (∀ wanted, wanted ∈ keys ↔
      ∃ advertised ∈ every, key advertised = wanted ∧ Reached selfUuid events advertised) ∧
    List.Forall₂ (fun wanted peer =>
      ∃ advertised ∈ every, key advertised = wanted ∧ Tells events hashes advertised peer) keys peers

theorem lookup_insertSome (txt : AList fun _ : String => String) (name wanted : String)
    (value : Option String) : (insertSome txt name value).lookup wanted =
      if wanted = name then value.or (txt.lookup wanted) else txt.lookup wanted := by
  cases value with
  | none => simp [insertSome]
  | some text =>
      by_cases hname : wanted = name
      · subst hname
        simp [insertSome]
      · simp [insertSome, hname, AList.lookup_insert_ne]

theorem lookup_name :
    (registerService advertised).properties.lookup "name" = some advertised.localName := by
  simp only [registerService, lookup_insertSome, AList.lookup_insert]
  rfl

theorem lookup_room : (registerService advertised).properties.lookup "room" =
    advertised.roomHash.map fun hash => hexEncode hash.toList := by
  simp only [registerService, lookup_insertSome]
  rw [if_neg (by decide), if_pos trivial, AList.lookup_insert_ne (by decide), AList.lookup_empty,
    Option.or_none]

theorem lookup_uuid :
    (registerService advertised).properties.lookup "uuid" = advertised.appUuid := by
  simp only [registerService, lookup_insertSome]
  rw [if_pos trivial, if_neg (by decide), AList.lookup_insert_ne (by decide), AList.lookup_empty,
    Option.or_none]

/-- The room hash comes through, and nothing comes of its absence. -/
theorem metadata_registerService :
    metadata (registerService advertised) =
      (advertised.roomHash.map List.Vector.toList).getD [] := by
  rw [metadata, lookup_room]
  cases advertised.roomHash with
  | none => rfl
  | some hash =>
      have hread : hexDecode8 (hexEncode hash.toList) = .ok hash := by
        rw [hexEncode_eq, hexDecode8, readHash_hexText]
      simp only [Option.map_some, hread, Option.getD_some]

theorem isOwn_registerService : isOwn selfUuid (registerService advertised) = true ↔
    ∃ mine ∈ selfUuid, mine ∈ advertised.appUuid := by
  simp only [isOwn, lookup_uuid]
  cases selfUuid <;> cases advertised.appUuid <;> simp [eq_comm]

/-- The filter judges by the room that was advertised. -/
theorem matches_registerService :
    Scanner.metadataMatchesAnyRoom (metadata (registerService advertised)) hashes = true ↔
      hashes = [] ∨ ∀ hash ∈ advertised.roomHash, hash ∈ hashes := by
  rw [metadata_registerService, metadataMatchesAnyRoom_iff]
  cases advertised.roomHash with
  | none => simp
  | some hash =>
      have hwhole : hash.toList.length = 8 := hash.toList_length
      have hsome : hash.toList ≠ [] := List.ne_nil_of_length_pos (by omega)
      have hsame : ∀ other : HashBytes, other.toList = hash.toList ↔ other = hash :=
        fun other => ⟨fun heq => Subtype.ext heq, fun heq => heq ▸ rfl⟩
      simp [hsome, isInfix_iff_eq hwhole, hsame]

/-- An event that tells of a peer tells of what was advertised. -/
theorem tells_of_surfaced {addresses : List Ipv4Addr} {entry : String × DiscoveredPeer}
    (hevent : .resolved (registerService advertised) addresses ∈ events)
    (hsurfaced : surfaced selfUuid (.resolved (registerService advertised) addresses) =
      some entry) :
    entry.1 = key advertised ∧ Reached selfUuid events advertised ∧
      Tells events hashes advertised entry.2 := by
  rw [surfaced] at hsurfaced
  split_ifs at hsurfaced with hown
  obtain ⟨address, hfound, rfl⟩ := Option.map_eq_some_iff.mp hsurfaced
  have hmem := List.mem_of_find?_eq_some hfound
  have hne : address ≠ LOOPBACK := by simpa using List.find?_some hfound
  refine ⟨rfl, ⟨?_, addresses, hevent, address, hmem, hne⟩, ?_⟩
  · intro mine hmine huuid
    exact hown (isOwn_registerService.mpr ⟨mine, hmine, huuid⟩)
  · refine ⟨⟨addresses, address, hevent, hmem, hne, ?_⟩, ?_, matches_registerService⟩
    · exact SocketAddrV4.parse_display _
    · rw [peerAt, lookup_name, Option.getD_some]

/-- An event that can tell of a peer does. -/
theorem surfaced_of_reached (reached : Reached selfUuid events advertised) :
    ∃ event ∈ events, ∃ entry, surfaced selfUuid event = some entry ∧
      entry.1 = key advertised := by
  obtain ⟨hother, addresses, hevent, address, hmem, hne⟩ := reached
  have hown : ¬ isOwn selfUuid (registerService advertised) = true := by
    rw [isOwn_registerService]
    rintro ⟨mine, hmine, huuid⟩
    exact hother mine hmine huuid
  have hfound : (addresses.find? fun address => address ≠ LOOPBACK).isSome = true := by
    rw [List.find?_isSome]
    exact ⟨address, hmem, decide_eq_true hne⟩
  obtain ⟨first, hfirst⟩ := Option.isSome_iff_exists.mp hfound
  refine ⟨_, hevent, (key advertised, peerAt (registerService advertised) first), ?_, rfl⟩
  rw [surfaced, if_neg hown, hfirst]
  rfl

/-- Looking a key up finds the first peer that was told of under it. -/
theorem lookup_browse (wanted : String) : (browse selfUuid events).lookup wanted =
    ((events.filterMap (surfaced selfUuid)).find? fun entry => entry.1 = wanted).map
      Prod.snd := by
  have hfold := Lookup.lookup_foldl_insertNew (events.filterMap (surfaced selfUuid)) ∅ wanted
  rw [List.foldl_filterMap, AList.lookup_empty, Option.none_or] at hfold
  rw [← hfold, browse]
  congr 2
  funext peers event
  cases surfaced selfUuid event with
  | none => rfl
  | some entry => rfl

end Found

/-- Whatever was advertised and whatever the network reports of it, browsing finds one peer
for each key under which something can be reached: the address that its id spells is one
of those that were advertised, and its metadata lets it pass exactly if its room does. -/
theorem discovers_of_advertised {every : List Advertisement} {selfUuid : Option String}
    {events : List ServiceEvent} {hashes : List HashBytes}
    (reported : ∀ info addresses, .resolved info addresses ∈ events →
      ∃ advertised ∈ every, registerService advertised = info) :
    Discovers every selfUuid events hashes (browseOnce selfUuid events) := by
  -- a peer that was told of is one that was advertised
  have htold : ∀ entry ∈ events.filterMap (surfaced selfUuid), ∃ advertised ∈ every,
      key advertised = entry.1 ∧ Reached selfUuid events advertised ∧
        Tells events hashes advertised entry.2 := by
    intro entry hentry
    obtain ⟨event, hevent, hsurfaced⟩ := List.mem_filterMap.mp hentry
    cases event with
    | other => cases hsurfaced
    | resolved info addresses =>
        obtain ⟨advertised, hmem, rfl⟩ := reported info addresses hevent
        obtain ⟨hkey, hreached, htells⟩ := tells_of_surfaced hevent hsurfaced
        exact ⟨advertised, hmem, hkey.symm, hreached, htells⟩
  refine ⟨(browse selfUuid events).keys, (browse selfUuid events).keys_nodup, ?_, ?_⟩
  · intro wanted
    rw [← AList.mem_keys, ← AList.lookup_isSome, lookup_browse, Option.isSome_map,
      List.find?_isSome]
    constructor
    · rintro ⟨entry, hentry, hwanted⟩
      obtain ⟨advertised, hmem, hkey, hreached, _⟩ := htold entry hentry
      exact ⟨advertised, hmem, hkey.trans (of_decide_eq_true hwanted), hreached⟩
    · rintro ⟨advertised, _, hkey, hreached⟩
      obtain ⟨event, hevent, entry, hsurfaced, hentry⟩ := surfaced_of_reached hreached
      exact ⟨entry, List.mem_filterMap.mpr ⟨event, hevent, hsurfaced⟩,
        decide_eq_true (hentry.trans hkey)⟩
  · rw [browseOnce, AList.keys, List.keys, List.forall₂_map_left_iff,
      List.forall₂_map_right_iff, List.forall₂_same]
    rintro ⟨wanted, peer⟩ hentry
    have hlookup : (browse selfUuid events).lookup wanted = some peer :=
      AList.mem_lookup_iff.mpr hentry
    rw [lookup_browse] at hlookup
    obtain ⟨entry, hfound, rfl⟩ := Option.map_eq_some_iff.mp hlookup
    obtain ⟨advertised, hmem, hkey, _, htells⟩ := htold entry (List.mem_of_find?_eq_some hfound)
    have hwanted : entry.1 = wanted := by simpa using List.find?_some hfound
    exact ⟨advertised, hmem, hkey.trans hwanted, htells⟩

/-- A phone in a room, seen twice, and the browser itself. -/
def phone : Advertisement := ⟨8080, "Ann's phone", some (.replicate 8 7), some "phone"⟩

def crowd : List ServiceEvent :=
  [.resolved (registerService ⟨9000, "me", none, some "me"⟩) [⟨192, 168, 0, 2⟩],
    .resolved (registerService phone) [LOOPBACK], .other,
    .resolved (registerService phone) [LOOPBACK, ⟨192, 168, 0, 3⟩],
    .resolved (registerService phone) [⟨10, 0, 0, 3⟩]]

theorem discovers_of_advertised_crowd :
    (browseOnce (some "me") crowd).map (·.id) = ["192.168.0.3:8080"] ∧
      Discovers [⟨9000, "me", none, some "me"⟩, phone] (some "me") crowd [.replicate 8 7]
        (browseOnce (some "me") crowd) := by
  refine ⟨by decide, discovers_of_advertised ?_⟩
  intro info addresses hevent
  simp only [crowd, List.mem_cons, ServiceEvent.resolved.injEq, reduceCtorEq, List.not_mem_nil,
    or_false, false_or] at hevent
  rcases hevent with ⟨rfl, _⟩ | ⟨rfl, _⟩ | ⟨rfl, _⟩ | ⟨rfl, _⟩ <;> simp

end TcpTransport

end Mlink.Transport
