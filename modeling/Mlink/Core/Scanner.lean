/-
# The scanner

A scanner asks its transport for peers again and again, and hands on each one once.
What it remembers is the ids it has handed on. Its room filter, which may change
between two calls, looks for the hash of a joined room anywhere in the metadata of a
peer, whatever source the metadata came from.
-/

import Mathlib.Data.Finset.Basic
import Mathlib.Data.Finset.Lattice.Lemmas
import Mathlib.Data.List.DropRight
import Mathlib.Data.Vector.Basic
import Mlink.Transport.BleDiscovery

namespace Mlink.Transport

open Mlink.Protocol

structure DiscoveredPeer where
  id : String
  name : String
  rssi : Option Int16
  metadata : Bytes
  deriving DecidableEq

/-- A peripheral as the adapter knows it after a scan. -/
structure Peripheral where
  id : String
  properties : Option PeripheralProperties
  rssi : Option Int16
  deriving DecidableEq

namespace BleTransport

/-- A peripheral without properties is left out. -/
def discovered (peripheral : Peripheral) : Option DiscoveredPeer :=
  peripheral.properties.map fun props =>
    ⟨peripheral.id, props.discovered.1, peripheral.rssi, props.metadata⟩

def discover (peripherals : List Peripheral) : List DiscoveredPeer :=
  peripherals.filterMap discovered

end BleTransport

end Mlink.Transport

namespace Mlink.Core

open Mlink.Protocol Mlink.Transport

/-- The eight bytes of a room hash. -/
abbrev HashBytes := List.Vector UInt8 8

/-- The pieces of a given length, one for each place it fits. -/
def windows (size : Nat) (bytes : Bytes) : List Bytes :=
  (List.range (bytes.length + 1 - size)).map fun start => (bytes.drop start).take size

structure Scanner where
  appUuid : String
  seen : Finset String
  roomHashes : List HashBytes
  deriving DecidableEq

namespace Scanner

def new (appUuid : String) : Scanner := ⟨appUuid, ∅, []⟩

/-- The room filter. -/
def metadataMatchesAnyRoom (metadata : Bytes) (hashes : List HashBytes) : Bool :=
  if hashes.isEmpty then true
  else if metadata.isEmpty then true
  else if metadata.length < 8 then false
  else hashes.any fun hash => (windows 8 metadata).any fun window => window = hash.toList

variable (scanner : Scanner)

def unsee (id : String) : Scanner := { scanner with seen := scanner.seen.erase id }

def reset : Scanner := { scanner with seen := ∅ }

def setRoomHashes (hashes : List HashBytes) : Scanner := { scanner with roomHashes := hashes }

/-- The loop of `discoverOnce` over what the transport has found. -/
def sift : Scanner → List DiscoveredPeer → List DiscoveredPeer × Scanner
  | scanner, [] => ([], scanner)
  | scanner, peer :: rest =>
      if peer.id = scanner.appUuid then sift scanner rest
      else if !metadataMatchesAnyRoom peer.metadata scanner.roomHashes then sift scanner rest
      else if peer.id ∈ scanner.seen then sift scanner rest
      else
        let later := sift { scanner with seen := insert peer.id scanner.seen } rest
        (peer :: later.1, later.2)

/-- One round, given what the transport answers. -/
def discoverOnce (answer : Result (List DiscoveredPeer)) :
    Result (List DiscoveredPeer) × Scanner :=
  match answer with
  | .error e => (.error e, scanner)
  | .ok all => (.ok (scanner.sift all).1, (scanner.sift all).2)

/-- A peer that the scanner may hand on: another one, and not filtered out. -/
def eligible (peer : DiscoveredPeer) : Bool :=
  peer.id ≠ scanner.appUuid && metadataMatchesAnyRoom peer.metadata scanner.roomHashes

end Scanner

/-! ## One round -/

def sameId (first second : DiscoveredPeer) : Bool := first.id = second.id

section Rounds

variable {scanner : Scanner}

theorem mem_windows_iff {size : Nat} {bytes piece : Bytes} :
    piece ∈ windows size bytes ↔ piece.length = size ∧ piece <:+: bytes := by
  rw [windows, List.mem_map]
  constructor
  · rintro ⟨start, hstart, rfl⟩
    rw [List.mem_range] at hstart
    have hlength : ((bytes.drop start).take size).length = size := by
      rw [List.length_take, List.length_drop]
      omega
    exact ⟨hlength, ((List.take_prefix _ _).isInfix).trans (List.drop_suffix _ _).isInfix⟩
  · rintro ⟨hlength, before, later, hbytes⟩
    have htotal : before.length + size + later.length = bytes.length := by
      rw [← hbytes, List.length_append, List.length_append, hlength]
    refine ⟨before.length, List.mem_range.mpr (by omega), ?_⟩
    rw [← hbytes, List.append_assoc, List.drop_left, ← hlength, List.take_left]

/-- The filter looks for a joined hash anywhere in the metadata. -/
theorem metadataMatchesAnyRoom_iff (metadata : Bytes) (hashes : List HashBytes) :
    Scanner.metadataMatchesAnyRoom metadata hashes = true ↔
      hashes = [] ∨ metadata = [] ∨ ∃ hash ∈ hashes, hash.toList <:+: metadata := by
  have hsearch : (hashes.any fun hash => (windows 8 metadata).any fun window =>
      window = hash.toList) = true ↔ ∃ hash ∈ hashes, hash.toList <:+: metadata := by
    simp [mem_windows_iff]
  rw [Scanner.metadataMatchesAnyRoom]
  by_cases hhashes : hashes = []
  · simp [hhashes]
  by_cases hmetadata : metadata = []
  · simp [hmetadata]
  rw [if_neg (by simpa using hhashes), if_neg (by simpa using hmetadata),
    or_iff_right hhashes, or_iff_right hmetadata]
  by_cases hshort : metadata.length < 8
  · rw [if_pos hshort, ← hsearch]
    refine iff_of_false (by simp) ?_
    rw [hsearch]
    rintro ⟨hash, _, hinfix⟩
    have hlength := hinfix.length_le
    rw [hash.toList_length] at hlength
    omega
  · rw [if_neg hshort, hsearch]

/-- A round marks what it hands on, and nothing else. -/
theorem sift_snd (scanner : Scanner) (all : List DiscoveredPeer) :
    (scanner.sift all).2 =
      { scanner with
        seen := scanner.seen ∪ ((scanner.sift all).1.map DiscoveredPeer.id).toFinset } := by
  fun_induction Scanner.sift scanner all with
  | case1 scanner => rw [List.map_nil, List.toFinset_nil, Finset.union_empty]
  | case2 scanner peer rest _ ih => exact ih
  | case3 scanner peer rest _ _ ih => exact ih
  | case4 scanner peer rest _ _ _ ih => exact ih
  | case5 scanner peer rest _ _ _ later ih =>
      rw [ih, List.map_cons, List.toFinset_cons, Finset.union_insert, ← Finset.insert_union]

/-- A round hands on the first eligible peer of each id that is not marked. -/
theorem sift_fst (scanner : Scanner) (all : List DiscoveredPeer) :
    (scanner.sift all).1 =
      (all.filter fun peer => scanner.eligible peer && peer.id ∉ scanner.seen).eraseDupsBy
        sameId := by
  fun_induction Scanner.sift scanner all with
  | case1 scanner => rfl
  | case2 scanner peer rest hself ih =>
      rw [ih, List.filter_cons_of_neg (by simp [Scanner.eligible, hself])]
  | case3 scanner peer rest _ hfiltered ih =>
      rw [ih, List.filter_cons_of_neg (by simp_all [Scanner.eligible])]
  | case4 scanner peer rest _ _ hseen ih =>
      rw [ih, List.filter_cons_of_neg (by simp [hseen])]
  | case5 scanner peer rest hself hmatches hfresh later ih =>
      rw [List.filter_cons_of_pos (by simp_all [Scanner.eligible]), List.eraseDupsBy_cons,
        List.filter_filter, ih]
      -- the mark of this peer drops the later ones of its id
      refine congrArg (fun kept => peer :: List.eraseDupsBy sameId kept) (List.filter_congr ?_)
      intro other _
      simp [Scanner.eligible, sameId, Bool.and_assoc, Bool.and_comm, Bool.and_left_comm]

/-- What a round hands on was found, is eligible, and was not marked. -/
theorem of_mem_sift (scanner : Scanner) (all : List DiscoveredPeer) :
    ∀ peer ∈ (scanner.sift all).1,
      peer ∈ all ∧ scanner.eligible peer = true ∧ peer.id ∉ scanner.seen := by
  fun_induction Scanner.sift scanner all with
  | case1 scanner => exact fun peer hpeer => absurd hpeer List.not_mem_nil
  | case2 scanner peer rest _ ih =>
      exact fun other hother => ⟨List.mem_cons_of_mem _ (ih other hother).1, (ih other hother).2⟩
  | case3 scanner peer rest _ _ ih =>
      exact fun other hother => ⟨List.mem_cons_of_mem _ (ih other hother).1, (ih other hother).2⟩
  | case4 scanner peer rest _ _ _ ih =>
      exact fun other hother => ⟨List.mem_cons_of_mem _ (ih other hother).1, (ih other hother).2⟩
  | case5 scanner peer rest hself hmatches hfresh later ih =>
      intro other hother
      rcases List.mem_cons.mp hother with rfl | hlater
      · exact ⟨List.mem_cons_self, by simp_all [Scanner.eligible], hfresh⟩
      · obtain ⟨hmem, heligible, hunseen⟩ := ih other hlater
        exact ⟨List.mem_cons_of_mem _ hmem, heligible,
          fun hseen => hunseen (Finset.mem_insert_of_mem hseen)⟩

/-- No id is handed on twice. -/
theorem nodup_sift (scanner : Scanner) (all : List DiscoveredPeer) :
    ((scanner.sift all).1.map DiscoveredPeer.id).Nodup := by
  fun_induction Scanner.sift scanner all with
  | case1 scanner => exact List.nodup_nil
  | case2 scanner peer rest _ ih => exact ih
  | case3 scanner peer rest _ _ ih => exact ih
  | case4 scanner peer rest _ _ _ ih => exact ih
  | case5 scanner peer rest _ _ _ later ih =>
      refine List.nodup_cons.mpr ⟨?_, ih⟩
      intro hmem
      obtain ⟨other, hother, hid⟩ := List.mem_map.mp hmem
      have hunseen := (of_mem_sift _ rest other hother).2.2
      exact hunseen (hid ▸ Finset.mem_insert_self _ _)

end Rounds

/-! ## A run -/

inductive ScanCall
  | discoverOnce (answer : Result (List DiscoveredPeer))
  | unsee (id : String)
  | reset
  | setRoomHashes (hashes : List HashBytes)

/-- The call makes the scanner hand on a peer again. -/
def ScanCall.forgets (id : String) : ScanCall → Bool
  | unsee other => id = other
  | reset => true
  | discoverOnce _ | setRoomHashes _ => false

def ScanCall.newHashes : ScanCall → Option (List HashBytes)
  | setRoomHashes hashes => some hashes
  | discoverOnce _ | unsee _ | reset => none

/-- A call, with the peers it handed on. -/
structure ScanEvent where
  call : ScanCall
  surfaced : List DiscoveredPeer

/-- A peer of that id was handed on since its last unsee or reset. -/
def surfacedSince (events : List ScanEvent) (id : String) : Bool :=
  (events.rtakeWhile fun event => !event.call.forgets id).any fun event =>
    event.surfaced.any fun peer => peer.id = id

/-- The hashes that were set last. -/
def hashesInForce (events : List ScanEvent) : List HashBytes :=
  (events.filterMap fun event => event.call.newHashes).getLast?.getD []

/-- A scanner, with what it has done. -/
structure Scanning where
  scanner : Scanner
  events : List ScanEvent

def Scanner.perform (scanner : Scanner) : ScanCall → List DiscoveredPeer × Scanner
  | .discoverOnce answer =>
      ((scanner.discoverOnce answer).1.toOption.getD [], (scanner.discoverOnce answer).2)
  | .unsee id => ([], scanner.unsee id)
  | .reset => ([], scanner.reset)
  | .setRoomHashes hashes => ([], scanner.setRoomHashes hashes)

namespace Scanning

def step (run : Scanning) (call : ScanCall) : Scanning :=
  ⟨(run.scanner.perform call).2, run.events ++ [⟨call, (run.scanner.perform call).1⟩]⟩

def after (appUuid : String) (calls : List ScanCall) : Scanning :=
  calls.foldl step ⟨.new appUuid, []⟩

/-- The scanner is what its history makes it. -/
structure Told (appUuid : String) (run : Scanning) : Prop where
  appUuid : run.scanner.appUuid = appUuid
  roomHashes : run.scanner.roomHashes = hashesInForce run.events
  seen : ∀ id, id ∈ run.scanner.seen ↔ surfacedSince run.events id = true

end Scanning

section Runs

variable {appUuid : String} {run : Scanning}

theorem surfacedSince_concat (events : List ScanEvent) (event : ScanEvent) (id : String) :
    surfacedSince (events ++ [event]) id =
      (!event.call.forgets id &&
        (surfacedSince events id || event.surfaced.any fun peer => peer.id = id)) := by
  rw [surfacedSince, List.rtakeWhile_concat]
  cases event.call.forgets id with
  | true => simp
  | false => simp [surfacedSince]

theorem hashesInForce_concat (events : List ScanEvent) (event : ScanEvent) :
    hashesInForce (events ++ [event]) =
      event.call.newHashes.getD (hashesInForce events) := by
  rw [hashesInForce, List.filterMap_append]
  cases hhashes : event.call.newHashes with
  | none => simp [hashesInForce, hhashes]
  | some hashes => simp [hhashes]

theorem Scanning.Told.step (told : run.Told appUuid) (call : ScanCall) :
    (run.step call).Told appUuid := by
  cases call with
  | discoverOnce answer =>
      cases answer with
      | error e =>
          refine ⟨told.appUuid, ?_, fun id => ?_⟩
          · rw [Scanning.step, hashesInForce_concat]
            exact told.roomHashes
          · rw [Scanning.step, surfacedSince_concat]
            simpa [Scanner.perform, Scanner.discoverOnce, ScanCall.forgets, Except.toOption]
              using told.seen id
      | ok all =>
          have hscanner : (run.step (.discoverOnce (.ok all))).scanner = (run.scanner.sift all).2 :=
            rfl
          refine ⟨?_, ?_, fun id => ?_⟩
          · rw [hscanner, sift_snd]
            exact told.appUuid
          · rw [hscanner, sift_snd, Scanning.step, hashesInForce_concat]
            exact told.roomHashes
          · rw [hscanner, sift_snd, Scanning.step, surfacedSince_concat, Finset.mem_union,
              told.seen id]
            simp [Scanner.perform, Scanner.discoverOnce, ScanCall.forgets, Except.toOption]
  | unsee other =>
      refine ⟨told.appUuid, ?_, fun id => ?_⟩
      · rw [Scanning.step, hashesInForce_concat]
        exact told.roomHashes
      · rw [Scanning.step, surfacedSince_concat]
        simp [Scanner.perform, Scanner.unsee, ScanCall.forgets, told.seen id]
  | reset =>
      refine ⟨told.appUuid, ?_, fun id => ?_⟩
      · rw [Scanning.step, hashesInForce_concat]
        exact told.roomHashes
      · rw [Scanning.step, surfacedSince_concat]
        simp [Scanner.perform, Scanner.reset, ScanCall.forgets]
  | setRoomHashes hashes =>
      refine ⟨told.appUuid, ?_, fun id => ?_⟩
      · rw [Scanning.step, hashesInForce_concat]
        rfl
      · rw [Scanning.step, surfacedSince_concat]
        simpa [Scanner.perform, Scanner.setRoomHashes, ScanCall.forgets] using told.seen id

theorem Scanning.told_after (appUuid : String) (calls : List ScanCall) :
    (Scanning.after appUuid calls).Told appUuid := by
  induction calls using List.reverseRecOn with
  | nil => exact ⟨rfl, rfl, fun id => by simp [Scanning.after, Scanner.new, surfacedSince]⟩
  | append_singleton calls call ih =>
      rw [Scanning.after, List.foldl_concat]
      exact ih.step call

/-- After any run, a round hands on the first of every id among the eligible peers not
handed on since their last unsee or reset, and marks no peer that is filtered out. What is
marked is what was handed on. -/
theorem Scanning.discoverOnce_after (appUuid : String) (calls : List ScanCall)
    (all : List DiscoveredPeer) :
    let run := Scanning.after appUuid calls
    let passes := fun peer : DiscoveredPeer => peer.id ≠ appUuid &&
      Scanner.metadataMatchesAnyRoom peer.metadata (hashesInForce run.events)
    let round := run.scanner.discoverOnce (.ok all)
    let due := all.filter fun peer => passes peer && !surfacedSince run.events peer.id
    round.1 = .ok (due.eraseDupsBy sameId) ∧
      ((due.eraseDupsBy sameId).map DiscoveredPeer.id).Nodup ∧
      (∀ id, (∀ peer ∈ all, peer.id = id → passes peer = false) →
        (id ∈ round.2.seen ↔ id ∈ run.scanner.seen)) ∧
      ∀ id, id ∈ run.scanner.seen ↔ surfacedSince run.events id = true := by
  intro run passes round due
  have told : run.Told appUuid := Scanning.told_after appUuid calls
  have hpasses : run.scanner.eligible = passes := by
    funext peer
    rw [Scanner.eligible, told.appUuid, told.roomHashes]
  have hfresh : (run.scanner.sift all).1 = due.eraseDupsBy sameId := by
    have hdue : (all.filter fun peer => run.scanner.eligible peer && peer.id ∉ run.scanner.seen) =
        due := by
      apply List.filter_congr
      intro peer _
      simp [hpasses, told.seen]
    rw [sift_fst, hdue]
  refine ⟨congrArg Except.ok hfresh, hfresh ▸ nodup_sift run.scanner all, ?_, told.seen⟩
  intro id hfiltered
  have hnone : id ∉ (run.scanner.sift all).1.map DiscoveredPeer.id := by
    intro hmem
    obtain ⟨peer, hpeer, hid⟩ := List.mem_map.mp hmem
    obtain ⟨hfound, heligible, _⟩ := of_mem_sift run.scanner all peer hpeer
    rw [hpasses, hfiltered peer hfound hid] at heligible
    cases heligible
  change id ∈ (run.scanner.sift all).2.seen ↔ _
  rw [sift_snd, Finset.mem_union, List.mem_toFinset, or_iff_left hnone]

end Runs

/-! ## What the filter makes of an advertiser -/

section Advertisers

variable (hashes : List HashBytes) (props : PeripheralProperties)

/-- The room hash that the local name ends in. -/
def advertisedRoomHash : Option Bytes := (parseRoomHashFromName props.rawName).map Prod.snd

/-- The advertiser names a room, and it is none of the joined ones. -/
def AdvertisesOther : Prop :=
  ∃ advertised ∈ advertisedRoomHash props, ∀ hash ∈ hashes, hash.toList ≠ advertised

/-- The filter drops none but advertisers that name another room. -/
def DropsOnlyOthers : Prop :=
  Scanner.metadataMatchesAnyRoom props.metadata hashes = false → AdvertisesOther hashes props

/-- What stands in the metadata is no room hash, and does not look like a joined one. -/
def Misread : Prop :=
  match props.advertisedIdentity with
  | some identity => ∀ hash ∈ hashes, hash.toList ≠ identity
  | none =>
      advertisedRoomHash props = none ∧ props.manufacturerData.flatMap Prod.snd ≠ [] ∧
        ∀ hash ∈ hashes, ¬ hash.toList <:+: props.manufacturerData.flatMap Prod.snd

variable {hashes props}

theorem length_of_decodeIdentityUuid {uuid : Uuid} {identity : Bytes}
    (decoded : decodeIdentityUuid uuid = some identity) : identity.length = 8 := by
  rw [decodeIdentityUuid] at decoded
  split_ifs at decoded
  rw [← Option.some.inj decoded, List.length_take, List.length_drop, uuid.length_bytes]
  rfl

/-- In eight bytes there is room for one hash only. -/
theorem isInfix_iff_eq {bytes : Bytes} (whole : bytes.length = 8) (hash : HashBytes) :
    hash.toList <:+: bytes ↔ hash.toList = bytes := by
  constructor
  · intro hinside
    exact hinside.eq_of_length (by rw [hash.toList_length, whole])
  · exact fun heq => heq ▸ List.infix_refl _

/-- An identity is as long as a room hash, and is taken for one. -/
theorem matches_iff_of_identity {identity : Bytes}
    (advertised : props.advertisedIdentity = some identity) :
    Scanner.metadataMatchesAnyRoom props.metadata hashes = true ↔
      hashes = [] ∨ ∃ hash ∈ hashes, hash.toList = identity := by
  have hlength : identity.length = 8 := by
    obtain ⟨uuid, _, hdecoded⟩ := List.exists_of_findSome?_eq_some advertised
    exact length_of_decodeIdentityUuid hdecoded
  have hsome : identity ≠ [] := List.ne_nil_of_length_pos (by omega)
  rw [PeripheralProperties.metadata_of_identity advertised, metadataMatchesAnyRoom_iff,
    or_iff_right hsome]
  simp only [isInfix_iff_eq hlength]

/-- Without an identity, a name that ends in a room hash is judged by that hash. -/
theorem matches_iff_of_name {roomHash : Bytes} (advertised : props.advertisedIdentity = none)
    (named : advertisedRoomHash props = some roomHash) :
    Scanner.metadataMatchesAnyRoom props.metadata hashes = true ↔
      hashes = [] ∨ roomHash = [] ∨ ∃ hash ∈ hashes, hash.toList <:+: roomHash := by
  have hmetadata : props.metadata = roomHash := by
    rw [PeripheralProperties.metadata_of_none advertised, PeripheralProperties.nameAndFallback]
    obtain ⟨parsed, hparsed, hhash⟩ := Option.map_eq_some_iff.mp named
    rw [hparsed]
    exact hhash
  rw [hmetadata, metadataMatchesAnyRoom_iff]

/-- And without that, by all bytes of the manufacturer data. -/
theorem matches_iff_of_unnamed (advertised : props.advertisedIdentity = none)
    (unnamed : advertisedRoomHash props = none) :
    Scanner.metadataMatchesAnyRoom props.metadata hashes = true ↔
      hashes = [] ∨ props.manufacturerData.flatMap Prod.snd = [] ∨
        ∃ hash ∈ hashes, hash.toList <:+: props.manufacturerData.flatMap Prod.snd := by
  have hmetadata : props.metadata = props.manufacturerData.flatMap Prod.snd := by
    rw [PeripheralProperties.metadata_of_none advertised, PeripheralProperties.nameAndFallback]
    rw [advertisedRoomHash, Option.map_eq_none_iff] at unnamed
    rw [unnamed]
  rw [hmetadata, metadataMatchesAnyRoom_iff]

/-- The filter keeps its promise exactly when no room is joined, when the metadata is not
misread, or when the name gives the same answer as the misreading. -/
theorem dropsOnlyOthers_iff (hashes : List HashBytes) (props : PeripheralProperties) :
    DropsOnlyOthers hashes props ↔
      hashes = [] ∨ ¬ Misread hashes props ∨ AdvertisesOther hashes props := by
  rw [DropsOnlyOthers, ← Bool.not_eq_true]
  cases hidentity : props.advertisedIdentity with
  | some identity =>
      have hread : ¬ Misread hashes props ↔ ∃ hash ∈ hashes, hash.toList = identity := by
        rw [Misread, hidentity]
        push Not
        rfl
      rw [matches_iff_of_identity hidentity, hread, ← or_iff_not_imp_left, or_assoc]
  | none =>
      cases hnamed : advertisedRoomHash props with
      | none =>
          have hread : ¬ Misread hashes props ↔
              props.manufacturerData.flatMap Prod.snd = [] ∨
                ∃ hash ∈ hashes, hash.toList <:+: props.manufacturerData.flatMap Prod.snd := by
            rw [Misread, hidentity, hnamed, eq_self_iff_true, true_and, not_and_or, not_not]
            push Not
            rfl
          rw [matches_iff_of_unnamed hidentity hnamed, hread, ← or_iff_not_imp_left, or_assoc]
      | some roomHash =>
          have hmisread : ¬ Misread hashes props := by
            rw [Misread, hidentity, hnamed]
            exact fun hboth => nomatch hboth.1
          refine iff_of_true ?_ (.inr (.inl hmisread))
          rw [matches_iff_of_name hidentity hnamed]
          intro hdropped
          refine ⟨roomHash, hnamed, ?_⟩
          rintro hash hmem rfl
          exact hdropped (.inr (.inr ⟨hash, hmem, List.infix_refl _⟩))

end Advertisers

/-! ## An advertiser with an identity -/

def MLINK_SERVICE_UUID : Uuid where
  bytes := [0x00, 0x00, 0xFF, 0xAA, 0x00, 0x00, 0x10, 0x00, 0x80, 0x00, 0x00, 0x80, 0x5F, 0x9B,
    0x34, 0xFB]
  length_bytes := rfl

def joinedHash : HashBytes := ⟨[0xaa, 0xbb, 0xcc, 0xdd, 0xee, 0xff, 0x00, 0x11], rfl⟩

/-- What a node in the joined room advertises: its identity in a service uuid, and the
hash of the room in its name. -/
def roomMate : PeripheralProperties where
  localName := some "mlink#aabbccddeeff0011"
  services :=
    [MLINK_SERVICE_UUID,
      Uuid.marked ⟨[0x55, 0x0e, 0x84, 0x00, 0xe2, 0x9b, 0x41, 0xd4, 0xa7, 0x16, 0x44, 0x66, 0x55,
        0x44, 0x00, 0x00], rfl⟩]
  manufacturerData := []

/-- It names the room that is joined, and is dropped. -/
theorem not_dropsOnlyOthers_roomMate :
    advertisedRoomHash roomMate = some joinedHash.toList ∧
      Scanner.metadataMatchesAnyRoom roomMate.metadata [joinedHash] = false ∧
      ¬ DropsOnlyOthers [joinedHash] roomMate := by
  have hnamed : advertisedRoomHash roomMate = some joinedHash.toList := by decide
  have hdropped : Scanner.metadataMatchesAnyRoom roomMate.metadata [joinedHash] = false := by
    decide
  refine ⟨hnamed, hdropped, ?_⟩
  intro holds
  obtain ⟨advertised, hmem, hother⟩ := holds hdropped
  rw [hnamed, Option.mem_some_iff] at hmem
  exact hother joinedHash List.mem_cons_self hmem

end Mlink.Core
