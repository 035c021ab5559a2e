/-
# Stream connections

TCP and IPC connections frame messages the same way: four big-endian bytes of
length, then the body. `write` puts both on the stream; `read` awaits two
`read_exact` calls. A `read` is a future: polled, it takes what has arrived and
may stay pending with part of a message in its buffer, and dropped, it takes
that part with it.
-/

import Mlink.Lib.LengthPrefixed
import Mlink.Protocol.Frame

namespace Mlink.Transport

open Mlink.Protocol

/-- The bytes of a length prefix. -/
def LEN_PREFIX : Nat := 4

/-! ## The read future -/

/-- A pending `read`: in the `read_exact` of `len_buf` or in that of `payload`,
with the bytes it has consumed, which do not fill the buffer yet. -/
inductive Reading
  | lenBuf (got : Bytes) (short : got.length < LEN_PREFIX)
  | payload (len : UInt32) (got : Bytes) (short : got.length < len.toNat)
  deriving DecidableEq, Repr

/-- A `read` that has just been called. -/
def Reading.start : Reading := lenBuf [] (by decide)

/-- The bytes of the stream that are in the future and nowhere else. -/
def Reading.consumed : Reading → Bytes
  | lenBuf got _ => got
  | payload len got _ => be32 len ++ got

/-- What polling a `read` gives. -/
inductive Poll
  | pending (reading : Reading)
  | ready (data : Bytes)
  deriving DecidableEq, Repr

/-- Fill a buffer of `want` bytes from what has arrived, as one poll of
`read_exact` does. -/
def readExact (got : Bytes) (want : Nat) (arrived : Bytes) : Bytes × Bytes :=
  (got ++ arrived.take (want - got.length), arrived.drop (want - got.length))

/-- The second `read_exact`, into a buffer of the announced length. -/
def pollPayload (len : UInt32) (got arrived : Bytes) : Poll × Bytes :=
  let (got, arrived) := readExact got len.toNat arrived
  if short : got.length < len.toNat then (.pending (.payload len got short), arrived)
  else (.ready got, arrived)

/-- Poll a `read` on what has arrived. -/
def Reading.poll (reading : Reading) (arrived : Bytes) : Poll × Bytes :=
  match reading with
  | lenBuf got _ =>
      let (got, arrived) := readExact got LEN_PREFIX arrived
      if short : got.length < LEN_PREFIX then (.pending (.lenBuf got short), arrived)
      else pollPayload (ofBe32 got) [] arrived
  | payload len got _ => pollPayload len got arrived

/-- Reading moves bytes and loses none. -/
theorem readExact_append (got : Bytes) (want : Nat) (arrived : Bytes) :
    (readExact got want arrived).1 ++ (readExact got want arrived).2 = got ++ arrived := by
  simp [readExact]

/-- A buffer that is still short has taken everything. -/
theorem readExact_of_short {got : Bytes} {want : Nat} {arrived : Bytes}
    (short : (readExact got want arrived).1.length < want) :
    (readExact got want arrived).2 = [] := by
  simp only [readExact, List.length_append, List.length_take] at short
  rw [readExact, List.drop_eq_nil_iff]
  omega

/-- A buffer is never overfilled. -/
theorem readExact_length_le {got : Bytes} {want : Nat} (arrived : Bytes)
    (within : got.length ≤ want) : (readExact got want arrived).1.length ≤ want := by
  simp only [readExact, List.length_append, List.length_take]
  omega

/-- What a poll does with the bytes it was given: a pending future holds all of
them, and a ready one returned the body of the frame they start with. -/
def Accounts (bytes : Bytes) (polled : Poll × Bytes) : Prop :=
  match polled.1 with
  | .pending reading => reading.consumed = bytes ∧ polled.2 = []
  | .ready data =>
      data.length < 256 ^ LEN_PREFIX ∧ LengthPrefixed.frame LEN_PREFIX data ++ polled.2 = bytes

/-- A body of the announced length makes a frame with its prefix. -/
theorem frame_of_length {len : UInt32} {data : Bytes} (hlength : data.length = len.toNat) :
    LengthPrefixed.frame LEN_PREFIX data = be32 len ++ data := by
  rw [LengthPrefixed.frame, hlength]
  rfl

theorem pollPayload_accounts (len : UInt32) {got : Bytes} (arrived : Bytes)
    (within : got.length ≤ len.toNat) :
    Accounts (be32 len ++ got ++ arrived) (pollPayload len got arrived) := by
  have hmoved := readExact_append got len.toNat arrived
  rw [List.append_assoc, ← hmoved]
  by_cases short : (readExact got len.toNat arrived).1.length < len.toNat
  · have hnone := readExact_of_short short
    simp only [pollPayload, short, dif_pos]
    rw [hnone, List.append_nil]
    exact ⟨rfl, rfl⟩
  · have hfull : (readExact got len.toNat arrived).1.length = len.toNat := by
      have hle := readExact_length_le arrived within
      omega
    simp only [pollPayload, short, dif_neg, not_false_eq_true]
    refine ⟨?_, ?_⟩
    · rw [hfull]
      exact len.toNat_lt
    · rw [frame_of_length hfull, List.append_assoc]

/-- Every poll accounts for its bytes. -/
theorem Reading.poll_accounts (reading : Reading) (arrived : Bytes) :
    Accounts (reading.consumed ++ arrived) (reading.poll arrived) := by
  cases reading with
  | lenBuf got unfilled =>
      have hmoved := readExact_append got LEN_PREFIX arrived
      rw [Reading.consumed, ← hmoved]
      by_cases short : (readExact got LEN_PREFIX arrived).1.length < LEN_PREFIX
      · have hnone := readExact_of_short short
        simp only [Reading.poll, short, dif_pos]
        rw [hnone, List.append_nil]
        exact ⟨rfl, rfl⟩
      · have hfull : (readExact got LEN_PREFIX arrived).1.length = LEN_PREFIX := by
          have hle := readExact_length_le arrived (Nat.le_of_lt unfilled)
          omega
        let len := ofBe32 (readExact got LEN_PREFIX arrived).1
        have hempty : ([] : Bytes).length ≤ len.toNat := Nat.zero_le _
        have hrest := pollPayload_accounts len (readExact got LEN_PREFIX arrived).2 hempty
        rw [be32_ofBe32 hfull, List.append_nil] at hrest
        simp only [Reading.poll, short, dif_neg, not_false_eq_true]
        exact hrest
  | payload len got unfilled =>
      rw [Reading.poll, Reading.consumed]
      exact pollPayload_accounts len arrived (Nat.le_of_lt unfilled)

/-! ## The connection -/

/-- One direction of a connection: the messages written at one end and the
messages read at the other, with the bytes between them. -/
structure StreamConnection where
  peerId : String
  written : List Bytes
  /-- Written and not yet delivered. -/
  inflight : Bytes
  /-- Delivered and not yet consumed by a `read`. -/
  arrived : Bytes
  reading : Option Reading
  returned : List Bytes
  /-- The writing end has closed. -/
  shut : Bool
  deriving DecidableEq, Repr

/-- `TcpConnection` and `IpcConnection` read and write alike. -/
abbrev TcpConnection := StreamConnection

abbrev IpcConnection := StreamConnection

namespace StreamConnection

def new (peerId : String) : StreamConnection where
  peerId := peerId
  written := []
  inflight := []
  arrived := []
  reading := none
  returned := []
  shut := false

/-- Put the length and the body on the stream. -/
def write (connection : StreamConnection) (data : Bytes) : Result Unit × StreamConnection :=
  if connection.shut then (.error (.peerGone connection.peerId), connection)
  else if data.length ≤ 4294967295 then
    (.ok (),
      { connection with
        written := connection.written ++ [data]
        inflight := connection.inflight ++ (be32 (UInt32.ofNat data.length) ++ data) })
  else (.error (.payloadTooLarge data.length 4294967295), connection)

/-- Poll the pending `read`, or a new one. A `read` that the closed stream
cannot fill fails. -/
def read (connection : StreamConnection) : Option (Result Bytes) × StreamConnection :=
  match (connection.reading.getD .start).poll connection.arrived with
  | (.ready data, arrived) =>
      (some (.ok data),
        { connection with
          arrived, reading := none, returned := connection.returned ++ [data] })
  | (.pending reading, arrived) =>
      if connection.shut ∧ connection.inflight = [] then
        (some (.error (.io "early eof")), { connection with arrived, reading := none })
      else (none, { connection with arrived, reading := some reading })

/-- The network brings any number of bytes. -/
def deliver (connection : StreamConnection) (count : Nat) : StreamConnection :=
  { connection with
    arrived := connection.arrived ++ connection.inflight.take count
    inflight := connection.inflight.drop count }

/-- A select that another branch won drops the pending `read`. -/
def dropRead (connection : StreamConnection) : StreamConnection :=
  { connection with reading := none }

/-- The writing end closes. -/
def close (connection : StreamConnection) : StreamConnection := { connection with shut := true }

/-- The bytes that a dropped `read` would take with it. -/
def heldBack (connection : StreamConnection) : Bytes :=
  connection.reading.elim [] Reading.consumed

/-! ## Keeping in step -/

/-- The messages read are the first of the messages written. -/
def InStep (connection : StreamConnection) : Prop :=
  connection.returned <+: connection.written

instance (connection : StreamConnection) : Decidable connection.InStep :=
  inferInstanceAs (Decidable (connection.returned <+: connection.written))

/-- What keeps the ends in step: the messages not yet read are the bytes that
are held back, arrived and in flight, in this order, or the stream has ended. -/
structure Framed (connection : StreamConnection) : Prop where
  fits : ∀ message ∈ connection.written, message.length < 256 ^ LEN_PREFIX
  cut : ∃ remaining, connection.written = connection.returned ++ remaining ∧
    (LengthPrefixed.stream LEN_PREFIX remaining =
        connection.heldBack ++ connection.arrived ++ connection.inflight ∨
      connection.shut = true ∧ connection.reading = none ∧ connection.arrived = [] ∧
        connection.inflight = [])

theorem Framed.inStep {connection : StreamConnection} (framed : connection.Framed) :
    connection.InStep := by
  obtain ⟨remaining, hwritten, _⟩ := framed.cut
  exact ⟨remaining, hwritten.symm⟩

theorem new_framed (peerId : String) : (new peerId).Framed where
  fits := by
    intro message hmessage
    cases hmessage
  cut := ⟨[], rfl, .inl rfl⟩

theorem write_framed {connection : StreamConnection} (framed : connection.Framed) (data : Bytes) :
    (connection.write data).2.Framed := by
  by_cases hshut : connection.shut = true
  · rw [write, if_pos hshut]
    exact framed
  · by_cases hfits : data.length ≤ 4294967295
    · obtain ⟨remaining, hwritten, hbytes⟩ := framed.cut
      have hlt : data.length < 256 ^ LEN_PREFIX := by
        have hpow : 256 ^ LEN_PREFIX = 4294967296 := by decide
        omega
      rw [write, if_neg hshut, if_pos hfits]
      constructor
      · intro message hmessage
        rcases List.mem_append.mp hmessage with hold | hnew
        · exact framed.fits message hold
        · rw [List.mem_singleton.mp hnew]
          exact hlt
      · refine ⟨remaining ++ [data], by simp [hwritten], .inl ?_⟩
        have hframe : LengthPrefixed.frame LEN_PREFIX data =
            be32 (UInt32.ofNat data.length) ++ data :=
          frame_of_length (UInt32.toNat_ofNat_of_lt' hlt).symm
        rcases hbytes with hstream | ⟨hended, _⟩
        · simp [LengthPrefixed.stream_append, hstream, hframe, heldBack]
        · exact absurd hended hshut
    · rw [write, if_neg hshut, if_neg hfits]
      exact framed

theorem deliver_framed {connection : StreamConnection} (framed : connection.Framed) (count : Nat) :
    (connection.deliver count).Framed := by
  obtain ⟨remaining, hwritten, hbytes⟩ := framed.cut
  refine ⟨framed.fits, remaining, hwritten, ?_⟩
  rcases hbytes with hstream | ⟨hended, hreading, harrived, hinflight⟩
  · left
    rw [hstream]
    simp [deliver, heldBack]
  · right
    simp [deliver, hended, hreading, harrived, hinflight]

/-- A poll of the pending `read` keeps the ends in step. -/
theorem read_framed {connection : StreamConnection} (framed : connection.Framed) :
    connection.read.2.Framed := by
  obtain ⟨remaining, hwritten, hbytes⟩ := framed.cut
  have hheld : (connection.reading.getD .start).consumed = connection.heldBack := by
    cases hreading : connection.reading <;> simp [heldBack, hreading, Reading.start,
      Reading.consumed]
  have haccounts := (connection.reading.getD .start).poll_accounts connection.arrived
  rw [hheld] at haccounts
  rcases hpoll : (connection.reading.getD .start).poll connection.arrived with ⟨polled, arrived⟩
  rw [hpoll] at haccounts
  cases polled with
  | pending reading =>
      obtain ⟨hconsumed, rfl⟩ := haccounts
      by_cases hended : connection.shut ∧ connection.inflight = []
      · simp only [read, hpoll, if_pos hended]
        exact ⟨framed.fits, remaining, hwritten, .inr ⟨hended.1, rfl, rfl, hended.2⟩⟩
      · simp only [read, hpoll, if_neg hended]
        refine ⟨framed.fits, remaining, hwritten, ?_⟩
        rcases hbytes with hstream | ⟨hshut, _, _, hinflight⟩
        · left
          rw [hstream, ← hconsumed]
          simp [heldBack]
        · exact absurd ⟨hshut, hinflight⟩ hended
  | ready data =>
      obtain ⟨hlength, hframe⟩ := haccounts
      simp only [read, hpoll]
      refine ⟨framed.fits, ?_⟩
      rcases hbytes with hstream | ⟨_, hreading, harrived, _⟩
      · rw [← hframe, List.append_assoc] at hstream
        obtain ⟨later, rfl, hrest⟩ := LengthPrefixed.eq_cons_of_stream_eq (by decide)
          (fun message hmessage => framed.fits message (by rw [hwritten]; simp [hmessage]))
          hlength hstream
        exact ⟨later, by simp [hwritten], .inl (by simp [heldBack, ← hrest])⟩
      · -- nothing is left to make a frame of
        rw [heldBack, hreading, harrived] at hframe
        have hnil := congrArg List.length hframe
        simp [LengthPrefixed.frame, LEN_PREFIX] at hnil

theorem dropRead_framed {connection : StreamConnection} (framed : connection.Framed)
    (nothing : connection.heldBack = []) : connection.dropRead.Framed := by
  obtain ⟨remaining, hwritten, hbytes⟩ := framed.cut
  refine ⟨framed.fits, remaining, hwritten, ?_⟩
  rcases hbytes with hstream | ⟨hended, _, harrived, hinflight⟩
  · left
    rw [hstream, nothing]
    rfl
  · exact .inr ⟨hended, rfl, harrived, hinflight⟩

theorem close_framed {connection : StreamConnection} (framed : connection.Framed) :
    connection.close.Framed := by
  obtain ⟨remaining, hwritten, hbytes⟩ := framed.cut
  refine ⟨framed.fits, remaining, hwritten, ?_⟩
  rcases hbytes with hstream | ⟨_, hreading, harrived, hinflight⟩
  · exact .inl hstream
  · exact .inr ⟨rfl, hreading, harrived, hinflight⟩

end StreamConnection

end Mlink.Transport
