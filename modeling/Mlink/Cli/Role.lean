/-
# Who dials over BLE

Over BLE two nodes that find each other are not both to dial, and not both to
wait: each compares its own identity with the eight bytes of metadata that its
scan yielded, and the larger dials. The scan puts other things into the metadata
when it sees no identity, and eight of those bytes are compared all the same.
-/

import Mathlib.Logic.Basic
import Mlink.Transport.BleDiscovery

namespace Mlink.Cli

open Mlink.Protocol Mlink.Transport

/-- The transports that the commands offer. -/
inductive TransportKind
  | ble | tcp
  deriving DecidableEq, Repr

inductive RoleDecision
  | dial
  | skip
  | symmetricFallback
  deriving DecidableEq, Repr

/-- `some true` to dial, `some false` to wait; `none` for a tie and for a uuid that
does not parse. Slices compare by their first different byte. -/
def shouldDialAsCentral (parseStr : String → Option Uuid) (localAppUuid : String)
    (peerIdentity : Bytes) : Option Bool :=
  (parseStr localAppUuid).bind fun parsed =>
    match compare parsed.identity peerIdentity with
    | .gt => some true
    | .lt => some false
    | .eq => none

def decideBleRole (parseStr : String → Option Uuid) (kind : TransportKind) (localAppUuid : String)
    (peerMetadata : Bytes) : RoleDecision :=
  if kind ≠ .ble then .dial
  else if peerMetadata.length ≠ 8 then .dial
  else
    match shouldDialAsCentral parseStr localAppUuid peerMetadata with
    | some true => .dial
    | some false => .skip
    | none => .symmetricFallback

/-! ## Two nodes that see each other -/

/-- A node with an app uuid that parses. -/
structure BleNode (parseStr : String → Option Uuid) where
  appUuid : String
  uuid : Uuid
  parsed : parseStr appUuid = some uuid

/-- What a scan reports of a node: a service uuid that is marked as an identity is
the one that the node advertises, and all the rest is as it happens to arrive. -/
structure Sighting {parseStr : String → Option Uuid} (peer : BleNode parseStr) where
  props : PeripheralProperties
  own : ∀ service ∈ props.services, (decodeIdentityUuid service).isSome →
    encodeIdentityUuid parseStr peer.appUuid = some service

/-- Two nodes with different app uuids, and what each sees of the other. -/
structure Meeting (parseStr : String → Option Uuid) where
  left : BleNode parseStr
  right : BleNode parseStr
  distinct : left.uuid ≠ right.uuid
  leftSees : Sighting right
  rightSees : Sighting left

namespace BleNode

variable {parseStr : String → Option Uuid} (node : BleNode parseStr) {peer : BleNode parseStr}
  (seen : Sighting peer)

/-- What a node decides on what it sees. -/
def role : RoleDecision := decideBleRole parseStr .ble node.appUuid seen.props.metadata

/-- The node sees the identity of its peer, and the peer's is the larger. -/
def Yields : Prop :=
  seen.props.advertisedIdentity.isSome ∧ compare node.uuid.identity peer.uuid.identity = .lt

/-- The node sees no identity but eight other bytes, a room hash or manufacturer
data, and they are larger than its own identity. -/
def Misled : Prop :=
  seen.props.advertisedIdentity = none ∧ seen.props.nameAndFallback.2.length = 8 ∧
    compare node.uuid.identity seen.props.nameAndFallback.2 = .lt

end BleNode

section Sightings

variable {parseStr : String → Option Uuid} {node peer : BleNode parseStr}

/-- An identity that is seen is the peer's. -/
theorem Sighting.identity_of_advertised (seen : Sighting peer) {identity : Bytes}
    (advertised : seen.props.advertisedIdentity = some identity) :
    identity = peer.uuid.identity := by
  obtain ⟨service, hservice, hdecoded⟩ := List.exists_of_findSome?_eq_some advertised
  have hown := seen.own service hservice (by rw [hdecoded]; rfl)
  rw [encodeIdentityUuid, peer.parsed, Option.map_some, Option.some.injEq] at hown
  rw [← hown, decodeIdentityUuid_marked, Option.some.injEq] at hdecoded
  exact hdecoded.symm

/-- On eight bytes a node with a parsable uuid dials, waits or ties as they compare. -/
theorem role_of_length (seen : Sighting peer) (hlength : seen.props.metadata.length = 8) :
    node.role seen =
      match compare node.uuid.identity seen.props.metadata with
      | .gt => .dial
      | .lt => .skip
      | .eq => .symmetricFallback := by
  rw [BleNode.role, decideBleRole, if_neg (not_not.mpr rfl), if_neg (not_not.mpr hlength),
    shouldDialAsCentral, node.parsed, Option.bind_some]
  cases compare node.uuid.identity seen.props.metadata with
  | lt => rfl
  | eq => rfl
  | gt => rfl

theorem role_eq_skip_iff_of_metadata (seen : Sighting peer) :
    node.role seen = .skip ↔ seen.props.metadata.length = 8 ∧
      compare node.uuid.identity seen.props.metadata = .lt := by
  by_cases hlength : seen.props.metadata.length = 8
  · rw [role_of_length seen hlength]
    cases compare node.uuid.identity seen.props.metadata <;> simp [hlength]
  · have hdial : node.role seen = .dial := by
      rw [BleNode.role, decideBleRole, if_neg (not_not.mpr rfl), if_pos hlength]
    simp [hdial, hlength]

/-- A node waits when its peer outranks it, or when other bytes seem to. -/
theorem role_eq_skip_iff (seen : Sighting peer) :
    node.role seen = .skip ↔ node.Yields seen ∨ node.Misled seen := by
  rw [role_eq_skip_iff_of_metadata, BleNode.Yields, BleNode.Misled]
  cases hadvertised : seen.props.advertisedIdentity with
  | none => simp [PeripheralProperties.metadata_of_none hadvertised]
  | some identity =>
      rw [PeripheralProperties.metadata_of_identity hadvertised,
        seen.identity_of_advertised hadvertised]
      simp [Uuid.length_identity]

/-- A node that sees an identity smaller than its own dials. -/
theorem role_eq_dial_iff_of_identity (seen : Sighting peer)
    (sees : seen.props.metadata = peer.uuid.identity) :
    node.role seen = .dial ↔ compare peer.uuid.identity node.uuid.identity = .lt := by
  have hswap : compare peer.uuid.identity node.uuid.identity =
      (compare node.uuid.identity peer.uuid.identity).swap := Std.OrientedOrd.eq_swap
  rw [role_of_length seen (by rw [sees, Uuid.length_identity]), sees, hswap]
  cases compare node.uuid.identity peer.uuid.identity <;> simp

end Sightings

namespace Meeting

variable {parseStr : String → Option Uuid} (meeting : Meeting parseStr)

def leftRole : RoleDecision := meeting.left.role meeting.leftSees

def rightRole : RoleDecision := meeting.right.role meeting.rightSees

/-- Not both wait; and where each has the other's identity, and these differ, one
of them dials and the other does not. -/
structure Arbitrates : Prop where
  notBoth : ¬ (meeting.leftRole = .skip ∧ meeting.rightRole = .skip)
  exactlyOne : meeting.leftSees.props.metadata = meeting.right.uuid.identity →
    meeting.rightSees.props.metadata = meeting.left.uuid.identity →
    meeting.left.uuid.identity ≠ meeting.right.uuid.identity →
    Xor (meeting.leftRole = .dial) (meeting.rightRole = .dial)

/-- One side is misled, and the other is misled too or yields to it. -/
def Deadlocks : Prop :=
  meeting.left.Misled meeting.leftSees ∧
      (meeting.right.Misled meeting.rightSees ∨ meeting.right.Yields meeting.rightSees) ∨
    meeting.left.Yields meeting.leftSees ∧ meeting.right.Misled meeting.rightSees

variable {meeting}

/-- Two nodes never yield to each other. -/
theorem not_yields_both :
    ¬ (meeting.left.Yields meeting.leftSees ∧ meeting.right.Yields meeting.rightSees) := by
  rintro ⟨⟨_, hleft⟩, _, hright⟩
  rw [Std.OrientedOrd.eq_swap, hright] at hleft
  cases hleft

theorem both_skip_iff :
    meeting.leftRole = .skip ∧ meeting.rightRole = .skip ↔ meeting.Deadlocks := by
  have hyields := @not_yields_both parseStr meeting
  rw [leftRole, rightRole, role_eq_skip_iff, role_eq_skip_iff, Deadlocks]
  tauto

/-- On two identities that differ, one of the nodes dials. -/
theorem xor_dial (leftSees : meeting.leftSees.props.metadata = meeting.right.uuid.identity)
    (rightSees : meeting.rightSees.props.metadata = meeting.left.uuid.identity)
    (hne : meeting.left.uuid.identity ≠ meeting.right.uuid.identity) :
    Xor (meeting.leftRole = .dial) (meeting.rightRole = .dial) := by
  have hswap : compare meeting.right.uuid.identity meeting.left.uuid.identity =
      (compare meeting.left.uuid.identity meeting.right.uuid.identity).swap :=
    Std.OrientedOrd.eq_swap
  rw [leftRole, rightRole, role_eq_dial_iff_of_identity _ leftSees,
    role_eq_dial_iff_of_identity _ rightSees, hswap]
  cases hcompare : compare meeting.left.uuid.identity meeting.right.uuid.identity with
  | lt => simp [Xor]
  | gt => simp [Xor]
  | eq => exact absurd (Std.LawfulEqCmp.compare_eq_iff_eq.mp hcompare) hne

/-- The roles are arbitrated unless a misled node meets another one, or one that
yields to it. -/
theorem arbitrates_iff (meeting : Meeting parseStr) :
    meeting.Arbitrates ↔ ¬ meeting.Deadlocks := by
  constructor
  · intro arbitrates deadlocks
    exact arbitrates.notBoth (both_skip_iff.mpr deadlocks)
  · intro fine
    exact ⟨fun both => fine (both_skip_iff.mp both), xor_dial⟩

end Meeting

/-! ## Two nodes in one room -/

/-- The bytes of two app uuids. -/
def sampleUuid (appUuid : String) : Option Uuid :=
  if appUuid = "11111111-2222-4333-8444-555555555555" then
    some ⟨[0x11, 0x11, 0x11, 0x11, 0x22, 0x22, 0x43, 0x33,
      0x84, 0x44, 0x55, 0x55, 0x55, 0x55, 0x55, 0x55], rfl⟩
  else if appUuid = "aaaaaaaa-bbbb-4ccc-8ddd-eeeeeeeeeeee" then
    some ⟨[0xaa, 0xaa, 0xaa, 0xaa, 0xbb, 0xbb, 0x4c, 0xcc,
      0x8d, 0xdd, 0xee, 0xee, 0xee, 0xee, 0xee, 0xee], rfl⟩
  else none

def firstNode : BleNode sampleUuid := ⟨"11111111-2222-4333-8444-555555555555", _, rfl⟩

def secondNode : BleNode sampleUuid := ⟨"aaaaaaaa-bbbb-4ccc-8ddd-eeeeeeeeeeee", _, rfl⟩

/-- A name that ends in the hash of room 123456, and no identity. -/
def namedByRoom (peer : BleNode sampleUuid) : Sighting peer where
  props := ⟨some "mlink#d62f2a305fe55d4a", [], []⟩
  own := by
    intro service hservice
    cases hservice

def inOneRoom : Meeting sampleUuid :=
  ⟨firstNode, secondNode, by decide, namedByRoom secondNode, namedByRoom firstNode⟩

/-- Each waits for the other. -/
theorem not_arbitrates_inOneRoom : ¬ inOneRoom.Arbitrates := by
  intro arbitrates
  exact arbitrates.notBoth (by decide)

end Mlink.Cli
