/-
# Links

A link is one physical connection of a session with its health record: an
average round trip, an average error rate and the time of the last success.
`send` and `recv` run the connection and record how it went; the connection's
own answer is an argument, since the world decides it.
-/

import Mlink.Protocol.Types

namespace Mlink.Core

open Mlink.Protocol

inductive TransportKind
  | ble | tcp | ipc | mock
  deriving DecidableEq, Repr

namespace TransportKind

def asWire : TransportKind → String
  | ble => "ble"
  | tcp => "tcp"
  | ipc => "ipc"
  | mock => "mock"

def fromWire (name : String) : Option TransportKind :=
  match name with
  | "ble" => some ble
  | "tcp" => some tcp
  | "ipc" => some ipc
  | "mock" => some mock
  | _ => none

/-- A kind is read back from its own name. -/
@[simp]
theorem fromWire_asWire (kind : TransportKind) : fromWire kind.asWire = some kind := by
  cases kind <;> rfl

end TransportKind

/-- What a transport promises; the scheduler reads its throughput. -/
structure TransportCapabilities where
  throughputBps : UInt64
  deriving DecidableEq, Repr

structure LinkHealth where
  rttEmaUs : UInt32
  errRateMilli : UInt16
  lastOkAtMs : UInt64
  deriving DecidableEq, Repr

/-- `LinkHealth::default`. -/
def LinkHealth.default : LinkHealth := ⟨0, 0, 0⟩

def EMA_SHIFT : Nat := 3
def LINK_STALE_MS : UInt64 := 5000
def LINK_UNHEALTHY_ERR_MILLI : UInt16 := 500

/-- The largest `i64`. -/
def I64_MAX : Int := 9223372036854775807

/-- Saturate an exact result into `i64`. -/
def saturateI64 (value : Int) : Int := max (-I64_MAX - 1) (min value I64_MAX)

/-- One step of the round-trip average; the first sample is taken whole. -/
def emaU32 (prev sample : UInt32) : UInt32 :=
  if prev = 0 then sample
  else
    let diff : Int := sample.toNat - prev.toNat
    UInt32.ofNat (max 0 (min (prev.toNat + diff >>> EMA_SHIFT) 4294967295)).toNat

/-- One step of the error average, in thousandths. -/
def emaErr (prev sample : UInt16) : UInt16 :=
  let diff : Int := sample.toNat - prev.toNat
  UInt16.ofNat (max 0 (min (prev.toNat + diff >>> EMA_SHIFT) 1000)).toNat

/-- Throughput scaled by the success rate, less a tenth of the round trip. -/
def scoreFrom (caps : TransportCapabilities) (health : LinkHealth) : Int :=
  let throughput : Int := min caps.throughputBps.toNat I64_MAX
  let successFactor : Int := 1000 - health.errRateMilli.toNat
  let base := (saturateI64 (throughput * successFactor)).tdiv 1000
  saturateI64 (base - (health.rttEmaUs.toNat : Int).tdiv 10)

/-- The identity of a physical connection. -/
abbrev ConnId := Nat

/-- An instant, in milliseconds. -/
abbrev Instant := Nat

structure Link where
  id : String
  kind : TransportKind
  caps : TransportCapabilities
  conn : ConnId
  health : LinkHealth
  createdAt : Instant
  deriving DecidableEq, Repr

namespace Link

def new (id : String) (conn : ConnId) (kind : TransportKind) (caps : TransportCapabilities)
    (now : Instant) : Link :=
  { id, kind, caps, conn, health := .default, createdAt := now }

/-- Milliseconds since the link was made, as `u64`. -/
def nowMs (link : Link) (now : Instant) : UInt64 := UInt64.ofNat (now - link.createdAt)

def recordRtt (link : Link) (now : Instant) (rttUs : UInt32) : Link :=
  { link with
    health := { rttEmaUs := emaU32 link.health.rttEmaUs rttUs,
                errRateMilli := emaErr link.health.errRateMilli 0,
                lastOkAtMs := link.nowMs now } }

def recordSuccess (link : Link) (now : Instant) : Link :=
  { link with
    health := { link.health with
      errRateMilli := emaErr link.health.errRateMilli 0, lastOkAtMs := link.nowMs now } }

def recordError (link : Link) : Link :=
  { link with
    health := { link.health with errRateMilli := emaErr link.health.errRateMilli 1000 } }

def score (link : Link) : Int := scoreFrom link.caps link.health

/-- Too many errors make a link unhealthy, and so does a long silence once a
round trip has been measured. -/
def isHealthy (link : Link) (now : Instant) : Bool :=
  if LINK_UNHEALTHY_ERR_MILLI ≤ link.health.errRateMilli then false
  else if 0 < link.health.rttEmaUs ∧
      LINK_STALE_MS.toNat ≤ (link.nowMs now).toNat - link.health.lastOkAtMs.toNat then false
  else true

/-- Write to the connection, whose answer is `outcome`, and record it. -/
def send (link : Link) (now : Instant) (outcome : Result Unit) : Result Unit × Link :=
  match outcome with
  | .ok () => (.ok (), link.recordSuccess now)
  | .error e => (.error e, link.recordError)

/-- Read from the connection, whose answer is `outcome`, and record it. -/
def recv (link : Link) (now : Instant) (outcome : Result Bytes) : Result Bytes × Link :=
  match outcome with
  | .ok bytes => (.ok bytes, link.recordSuccess now)
  | .error e => (.error e, link.recordError)

section Identity

variable (link : Link) (now : Instant)

/-- Using a link changes its health and nothing that identifies it. -/
@[simp]
theorem send_id (outcome : Result Unit) : (link.send now outcome).2.id = link.id := by
  cases outcome <;> rfl

@[simp]
theorem send_kind (outcome : Result Unit) : (link.send now outcome).2.kind = link.kind := by
  cases outcome <;> rfl

@[simp]
theorem send_conn (outcome : Result Unit) : (link.send now outcome).2.conn = link.conn := by
  cases outcome <;> rfl

@[simp]
theorem send_result (outcome : Result Unit) : (link.send now outcome).1 = outcome := by
  cases outcome <;> rfl

@[simp]
theorem recv_id (outcome : Result Bytes) : (link.recv now outcome).2.id = link.id := by
  cases outcome <;> rfl

@[simp]
theorem recv_kind (outcome : Result Bytes) : (link.recv now outcome).2.kind = link.kind := by
  cases outcome <;> rfl

@[simp]
theorem recv_result (outcome : Result Bytes) : (link.recv now outcome).1 = outcome := by
  cases outcome <;> rfl

end Identity

end Link

end Mlink.Core
