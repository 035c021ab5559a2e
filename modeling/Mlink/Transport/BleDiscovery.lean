/-
# What a scan yields of an advertiser

An advertiser carries eight bytes of its app uuid in a second service uuid, marked
by its first four bytes. A scan takes these as the metadata of the peer; without
them it takes the room hash that a local name ends in, and without that whatever
the manufacturer data holds. Parsing the text of a uuid is the work of a library,
and a parameter here.
-/

import Mlink.Protocol.Types

namespace Mlink.Transport

open Mlink.Protocol

/-- The sixteen bytes of a uuid. -/
structure Uuid where
  bytes : Bytes
  length_bytes : bytes.length = 16
  deriving DecidableEq, Repr

namespace Uuid

/-- The bytes of an app uuid that two nodes compare. -/
def identity (uuid : Uuid) : Bytes := uuid.bytes.take 8

theorem length_identity (uuid : Uuid) : uuid.identity.length = 8 := by
  rw [identity, List.length_take, uuid.length_bytes]
  rfl

end Uuid

/-- The first four bytes of a service uuid that carries an identity. -/
def IDENTITY_UUID_MARKER : Bytes := [0x00, 0x00, 0xFF, 0xBB]

/-- The marker, the identity, and four zero bytes. -/
def Uuid.marked (uuid : Uuid) : Uuid where
  bytes := IDENTITY_UUID_MARKER ++ uuid.identity ++ List.replicate 4 0
  length_bytes := by
    rw [List.length_append, List.length_append, uuid.length_identity, List.length_replicate]
    rfl

def encodeIdentityUuid (parseStr : String → Option Uuid) (appUuid : String) : Option Uuid :=
  (parseStr appUuid).map Uuid.marked

/-- The identity that a service uuid carries, if it is marked. -/
def decodeIdentityUuid (uuid : Uuid) : Option Bytes :=
  if uuid.bytes.take 4 = IDENTITY_UUID_MARKER then some ((uuid.bytes.drop 4).take 8) else none

/-- The scanner reads what the advertiser wrote. -/
theorem decodeIdentityUuid_marked (uuid : Uuid) :
    decodeIdentityUuid uuid.marked = some uuid.identity := by
  have htake : uuid.marked.bytes.take 4 = IDENTITY_UUID_MARKER := rfl
  have hdrop : uuid.marked.bytes.drop 4 = uuid.identity ++ List.replicate 4 0 := rfl
  rw [decodeIdentityUuid, if_pos htake, hdrop, ← uuid.length_identity, List.take_left]

/-! ## The local name -/

def isAsciiHexdigit (char : Char) : Bool :=
  char.isDigit || ('a' ≤ char && char ≤ 'f') || ('A' ≤ char && char ≤ 'F')

def hexValue (char : Char) : UInt8 :=
  if char.isDigit then (char.toNat - '0'.toNat).toUInt8
  else if 'a' ≤ char then (char.toNat - 'a'.toNat + 10).toUInt8
  else (char.toNat - 'A'.toNat + 10).toUInt8

/-- The bytes that pairs of digits stand for. -/
def hexBytes : List Char → Bytes
  | high :: low :: rest => (16 * hexValue high + hexValue low) :: hexBytes rest
  | _ => []

/-- Split a name at its last `#`. -/
def splitAtLastHash (name : String) : Option (String × String) :=
  let backwards := name.toList.reverse
  if '#' ∈ backwards then
    let suffix := backwards.takeWhile fun char => char ≠ '#'
    let base := backwards.drop (suffix.length + 1)
    some (String.ofList base.reverse, String.ofList suffix.reverse)
  else none

/-- The name before its last `#`, and the eight bytes that sixteen digits after it
spell. -/
def parseRoomHashFromName (name : String) : Option (String × Bytes) :=
  match splitAtLastHash name with
  | none => none
  | some (base, hexStr) =>
      if hexStr.utf8ByteSize ≠ 16 ∨ !hexStr.toList.all isAsciiHexdigit then none
      else some (base, hexBytes hexStr.toList)

example : parseRoomHashFromName "mlink-node#aabbccddeeff0011" =
    some ("mlink-node", [0xaa, 0xbb, 0xcc, 0xdd, 0xee, 0xff, 0x00, 0x11]) := by decide

/-! ## A scan -/

/-- What the adapter reports of a peripheral. The manufacturer data stands in the
order of the map that holds it. -/
structure PeripheralProperties where
  localName : Option String
  services : List Uuid
  manufacturerData : List (UInt16 × Bytes)
  deriving DecidableEq, Repr

namespace PeripheralProperties

variable (props : PeripheralProperties)

/-- The identity that one of the services carries. -/
def advertisedIdentity : Option Bytes := props.services.findSome? decodeIdentityUuid

def rawName : String := props.localName.getD ""

/-- What takes the place of an identity that is not there. -/
def nameAndFallback : String × Bytes :=
  match parseRoomHashFromName props.rawName with
  | some (base, hash) => (base, hash)
  | none => (props.rawName, props.manufacturerData.flatMap Prod.snd)

/-- The name and the metadata of a discovered peer. -/
def discovered : String × Bytes :=
  match props.advertisedIdentity with
  | some identity =>
      (((parseRoomHashFromName props.rawName).map Prod.fst).getD props.rawName, identity)
  | none => props.nameAndFallback

def metadata : Bytes := props.discovered.2

variable {props}

theorem metadata_of_identity {identity : Bytes}
    (advertised : props.advertisedIdentity = some identity) : props.metadata = identity := by
  rw [metadata, discovered, advertised]

theorem metadata_of_none (advertised : props.advertisedIdentity = none) :
    props.metadata = props.nameAndFallback.2 := by
  rw [metadata, discovered, advertised]

end PeripheralProperties

end Mlink.Transport
