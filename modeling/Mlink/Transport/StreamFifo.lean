/-
# A stream connection read to its end

`Framed` says that the messages read are the first of the messages written, and
leaves open what became of the others once the stream has ended. A reader that is
never dropped in the middle of a message loses nothing at all: what is not read yet
is on its way, byte for byte, until the last message is read. So a `read` fails
with the end of the stream only when there is nothing left to read, and one that
stays pending with an idle network has a right to.
-/

import Mlink.Transport.Stream

namespace Mlink.Transport

open Mlink.Protocol

/-- A future that is still pending has not consumed a whole message. -/
theorem Reading.consumed_ne_frame (reading : Reading) {message : Bytes} (rest : Bytes)
    (fits : message.length < 256 ^ LEN_PREFIX) :
    reading.consumed ≠ LengthPrefixed.frame LEN_PREFIX message ++ rest := by
  intro hconsumed
  cases reading with
  | lenBuf got short =>
      have hlength := congrArg List.length hconsumed
      simp only [consumed, LengthPrefixed.frame, List.length_append,
        BigEndian.encode_length] at hlength
      omega
  | payload len got short =>
      rw [consumed, LengthPrefixed.frame, List.append_assoc] at hconsumed
      obtain ⟨hlen, hgot⟩ := List.append_inj hconsumed (by simp [LEN_PREFIX])
      have hsame : len.toNat = message.length := BigEndian.encode_inj len.toNat_lt fits hlen
      have hlength := congrArg List.length hgot
      rw [List.length_append] at hlength
      omega

namespace StreamConnection

/-- Messages that were written and not yet returned by a `read`. -/
def unread (connection : StreamConnection) : List Bytes :=
  connection.written.drop connection.returned.length

/-- The messages not yet read are held back, arrived and in flight, byte for byte. -/
structure Lossless (connection : StreamConnection) : Prop where
  fits : ∀ message ∈ connection.written, message.length < 256 ^ LEN_PREFIX
  returned : connection.written = connection.returned ++ connection.unread
  bytes : LengthPrefixed.stream LEN_PREFIX connection.unread =
    connection.heldBack ++ connection.arrived ++ connection.inflight

/-- To know the messages not yet read is to know `unread`. -/
theorem Lossless.of_cut {connection : StreamConnection} (remaining : List Bytes)
    (fits : ∀ message ∈ connection.written, message.length < 256 ^ LEN_PREFIX)
    (cut : connection.written = connection.returned ++ remaining)
    (bytes : LengthPrefixed.stream LEN_PREFIX remaining =
      connection.heldBack ++ connection.arrived ++ connection.inflight) :
    connection.Lossless := by
  have hunread : connection.unread = remaining := by rw [unread, cut, List.drop_left]
  exact ⟨fits, hunread ▸ cut, hunread ▸ bytes⟩

theorem new_lossless (peerId : String) : (new peerId).Lossless where
  fits := fun message hmessage => by cases hmessage
  returned := rfl
  bytes := rfl

variable {connection : StreamConnection}

/-- A message that was accepted is on its way behind the others. -/
theorem write_lossless (lossless : connection.Lossless) (data : Bytes) :
    (connection.write data).2.Lossless := by
  rw [write]
  split_ifs with hshut hfits
  · exact lossless
  · have hlt : data.length < 256 ^ LEN_PREFIX := by
      have hpow : 256 ^ LEN_PREFIX = 4294967296 := by decide
      omega
    have hframe : LengthPrefixed.frame LEN_PREFIX data =
        be32 (UInt32.ofNat data.length) ++ data :=
      frame_of_length (UInt32.toNat_ofNat_of_lt' hlt).symm
    refine .of_cut (connection.unread ++ [data]) ?_ ?_ ?_
    · intro message hmessage
      rcases List.mem_append.mp hmessage with hold | hnew
      · exact lossless.fits message hold
      · rw [List.mem_singleton.mp hnew]
        exact hlt
    · have hwritten := congrArg (· ++ [data]) lossless.returned
      simpa using hwritten
    · rw [LengthPrefixed.stream_append, lossless.bytes, LengthPrefixed.stream_cons,
        LengthPrefixed.stream_nil, hframe]
      simp [heldBack]
  · exact lossless

theorem deliver_lossless (lossless : connection.Lossless) (count : Nat) :
    (connection.deliver count).Lossless := by
  refine .of_cut connection.unread lossless.fits lossless.returned ?_
  rw [lossless.bytes]
  simp [deliver, heldBack]

theorem close_lossless (lossless : connection.Lossless) : connection.close.Lossless :=
  .of_cut connection.unread lossless.fits lossless.returned lossless.bytes

/-! ## What a poll finds -/

/-- The future that a poll continues has consumed what the connection holds back. -/
theorem consumed_getD_start (connection : StreamConnection) :
    (connection.reading.getD .start).consumed = connection.heldBack := by
  cases hreading : connection.reading <;>
    simp [heldBack, hreading, Reading.start, Reading.consumed]

/-- A poll returns the first unread message, or finds that no message has arrived whole
and keeps what it consumed, or finds that the stream has ended and nothing is unread. -/
theorem read_cases (lossless : connection.Lossless) :
    (∃ message later, connection.unread = message :: later ∧
        connection.read.1 = some (.ok message) ∧
        connection.read.2.returned = connection.returned ++ [message]) ∨
      (connection.read.1 = none ∧ connection.read.2.returned = connection.returned ∧
        (connection.inflight = [] → connection.unread = [] ∧ connection.shut = false)) ∨
      (connection.read.1 = some (.error (.io "early eof")) ∧ connection.unread = [] ∧
        connection.shut = true ∧ connection.read.2.returned = connection.returned) := by
  have haccounts := (connection.reading.getD .start).poll_accounts connection.arrived
  rw [consumed_getD_start] at haccounts
  rcases hpoll : (connection.reading.getD .start).poll connection.arrived with ⟨polled, arrived⟩
  rw [hpoll] at haccounts
  cases polled with
  | ready data =>
      obtain ⟨hlength, hframe⟩ := haccounts
      have hbytes := lossless.bytes
      rw [← hframe, List.append_assoc] at hbytes
      have hunread : ∀ message ∈ connection.unread, message.length < 256 ^ LEN_PREFIX :=
        fun message hmessage => lossless.fits message (List.mem_of_mem_drop hmessage)
      obtain ⟨later, hlater, _⟩ :=
        LengthPrefixed.eq_cons_of_stream_eq (by decide) hunread hlength hbytes
      left
      refine ⟨data, later, hlater, ?_, ?_⟩ <;> simp only [read, hpoll]
  | pending reading =>
      obtain ⟨hconsumed, _⟩ := haccounts
      -- with nothing in flight, a first unread message would have been returned
      have hnothing : connection.inflight = [] → connection.unread = [] := by
        intro hidle
        cases hunread : connection.unread with
        | nil => rfl
        | cons message later =>
            have hbytes := lossless.bytes
            rw [hidle, List.append_nil, hunread, LengthPrefixed.stream_cons, ← hconsumed] at hbytes
            have hmem : message ∈ connection.unread := hunread ▸ List.mem_cons_self
            exact absurd hbytes.symm (reading.consumed_ne_frame _
              (lossless.fits message (List.mem_of_mem_drop hmem)))
      right
      by_cases hended : connection.shut = true ∧ connection.inflight = []
      · right
        rw [read, hpoll]
        dsimp only
        rw [if_pos hended]
        exact ⟨rfl, hnothing hended.2, hended.1, rfl⟩
      · left
        rw [read, hpoll]
        dsimp only
        rw [if_neg hended]
        refine ⟨rfl, rfl, fun hidle => ⟨hnothing hidle, ?_⟩⟩
        exact Bool.eq_false_of_not_eq_true fun hshut => hended ⟨hshut, hidle⟩

/-- A poll moves bytes into the future and messages out of it, and loses neither. -/
theorem read_lossless (lossless : connection.Lossless) : connection.read.2.Lossless := by
  have haccounts := (connection.reading.getD .start).poll_accounts connection.arrived
  rw [consumed_getD_start] at haccounts
  have hcases := read_cases lossless
  rcases hpoll : (connection.reading.getD .start).poll connection.arrived with ⟨polled, arrived⟩
  rw [hpoll] at haccounts
  cases polled with
  | ready data =>
      obtain ⟨hlength, hframe⟩ := haccounts
      have hbytes := lossless.bytes
      rw [← hframe, List.append_assoc] at hbytes
      have hunread : ∀ message ∈ connection.unread, message.length < 256 ^ LEN_PREFIX :=
        fun message hmessage => lossless.fits message (List.mem_of_mem_drop hmessage)
      obtain ⟨later, hlater, hrest⟩ :=
        LengthPrefixed.eq_cons_of_stream_eq (by decide) hunread hlength hbytes
      simp only [read, hpoll]
      refine .of_cut later lossless.fits ?_ ?_
      · rw [List.append_assoc, List.singleton_append, ← hlater]
        exact lossless.returned
      · simp [heldBack, ← hrest]
  | pending reading =>
      obtain ⟨hconsumed, rfl⟩ := haccounts
      by_cases hended : connection.shut = true ∧ connection.inflight = []
      · simp only [read, hpoll, if_pos hended] at hcases ⊢
        rcases hcases with ⟨_, _, _, hready, _⟩ | ⟨hpending, _⟩ | ⟨_, hunread, _, _⟩
        · cases hready
        · cases hpending
        · refine .of_cut connection.unread lossless.fits lossless.returned ?_
          rw [hunread, hended.2]
          rfl
      · simp only [read, hpoll, if_neg hended]
        refine .of_cut connection.unread lossless.fits lossless.returned ?_
        rw [lossless.bytes, ← hconsumed]
        simp [heldBack]

/-- A poll writes nothing and closes nothing. -/
theorem written_read (connection : StreamConnection) :
    connection.read.2.written = connection.written ∧
      connection.read.2.shut = connection.shut := by
  rw [read]
  split
  · exact ⟨rfl, rfl⟩
  · split_ifs
    · exact ⟨rfl, rfl⟩
    · exact ⟨rfl, rfl⟩

end StreamConnection

end Mlink.Transport
