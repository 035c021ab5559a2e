/-
# Wire types and errors

The message types, the flag byte, the frame record and the error type of the
protocol layer. Integers keep the widths of the source, so a truncating cast is
a truncating cast here as well.
-/

import Mathlib.Data.List.Basic

namespace Mlink.Protocol

/-- A byte string. -/
abbrev Bytes := List UInt8

/-- The canonical error of the crate. An I/O or BLE error carries its text. -/
inductive MlinkError
  | timeout
  | peerGone (peerId : String)
  | handlerError (message : String)
  | payloadTooLarge (size max : Nat)
  | unknownMethod (method : String)
  | streamFailed (streamId : UInt16)
  | backpressure
  | securityError (message : String)
  | codecError (message : String)
  | compressError (message : String)
  | roomMismatch (peerId : String)
  | noHealthyLink (peerId : String)
  | ble (message : String)
  | io (message : String)
  deriving DecidableEq, Repr

/-- The text of an error, as its `Display` has it. -/
def MlinkError.display : MlinkError → String
  | timeout => "request timed out"
  | peerGone peerId => s!"peer disconnected: {peerId}"
  | handlerError message => s!"handler error: {message}"
  | payloadTooLarge size max => s!"payload too large: {size} > {max}"
  | unknownMethod method => s!"unknown method: {method}"
  | streamFailed streamId => s!"stream failed: stream_id={streamId}"
  | backpressure => "backpressure: receiver overloaded"
  | securityError message => s!"security error: {message}"
  | codecError message => s!"codec error: {message}"
  | compressError message => s!"compress error: {message}"
  | roomMismatch peerId => s!"room mismatch with peer {peerId}"
  | noHealthyLink peerId => s!"no healthy link for peer {peerId}"
  | ble message => s!"ble error: {message}"
  | io message => s!"io error: {message}"

/-- The crate's `Result`. -/
abbrev Result (α : Type) := Except MlinkError α

def MAGIC : UInt16 := 0x4D4C
def PROTOCOL_VERSION : UInt8 := 0x01
def HEADER_SIZE : Nat := 8

def FLAG_COMPRESSED : UInt8 := 0b10000000
def FLAG_ENCRYPTED : UInt8 := 0b01000000
def TYPE_MASK : UInt8 := 0b00111111
def TYPE_ERROR_ON_WIRE : UInt8 := 0x3F

/-- The type of a frame. -/
inductive MessageType
  | handshake | heartbeat | ack | ctrl
  | message | streamStart | streamChunk | streamEnd | streamAck
  | request | response | responseStream
  | subscribe | publish | unsubscribe
  | error
  deriving DecidableEq, Repr

namespace MessageType

/-- The discriminant of a message type. -/
def toU8 : MessageType → UInt8
  | handshake => 0x01
  | heartbeat => 0x02
  | ack => 0x03
  | ctrl => 0x04
  | message => 0x10
  | streamStart => 0x11
  | streamChunk => 0x12
  | streamEnd => 0x13
  | streamAck => 0x14
  | request => 0x20
  | response => 0x21
  | responseStream => 0x22
  | subscribe => 0x30
  | publish => 0x31
  | unsubscribe => 0x32
  | error => 0xFF

/-- The message type with a given discriminant, if there is one. -/
def tryFrom (value : UInt8) : Option MessageType :=
  if value = 0x01 then some handshake
  else if value = 0x02 then some heartbeat
  else if value = 0x03 then some ack
  else if value = 0x04 then some ctrl
  else if value = 0x10 then some message
  else if value = 0x11 then some streamStart
  else if value = 0x12 then some streamChunk
  else if value = 0x13 then some streamEnd
  else if value = 0x14 then some streamAck
  else if value = 0x20 then some request
  else if value = 0x21 then some response
  else if value = 0x22 then some responseStream
  else if value = 0x30 then some subscribe
  else if value = 0x31 then some publish
  else if value = 0x32 then some unsubscribe
  else if value = 0xFF then some error
  else none

end MessageType

/-- Pack the two payload flags and the message type into one byte. `Error` has
its own six-bit code because `0xFF` does not fit the type field. -/
def encodeFlags (compressed encrypted : Bool) (msgType : MessageType) : UInt8 :=
  let typeBits := match msgType with
    | .error => TYPE_ERROR_ON_WIRE
    | other => other.toU8 &&& TYPE_MASK
  let flags := if compressed then typeBits ||| FLAG_COMPRESSED else typeBits
  if encrypted then flags ||| FLAG_ENCRYPTED else flags

/-- Unpack a flag byte. An unknown type code reads as `Error`. -/
def decodeFlags (flags : UInt8) : Bool × Bool × MessageType :=
  let compressed := flags &&& FLAG_COMPRESSED != 0
  let encrypted := flags &&& FLAG_ENCRYPTED != 0
  let typeBits := flags &&& TYPE_MASK
  let msgType :=
    if typeBits = TYPE_ERROR_ON_WIRE then .error
    else (MessageType.tryFrom typeBits).getD .error
  (compressed, encrypted, msgType)

/-- The flag byte loses nothing. -/
@[simp]
theorem decodeFlags_encodeFlags (compressed encrypted : Bool) (msgType : MessageType) :
    decodeFlags (encodeFlags compressed encrypted msgType) =
      (compressed, encrypted, msgType) := by
  cases compressed <;> cases encrypted <;> cases msgType <;> rfl

/-- One frame on the wire. -/
structure Frame where
  magic : UInt16
  version : UInt8
  flags : UInt8
  seq : UInt16
  length : UInt16
  payload : Bytes
  deriving DecidableEq, Repr

end Mlink.Protocol
