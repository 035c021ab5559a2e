/-
# Length-prefixed messages on a byte stream

A message is written as its length in a fixed number of big-endian bytes, then
its body. As long as every length fits, the stream of a list of messages can be
cut in one way only: whatever a reader finds whole at its head is the first
message, and what follows is the stream of the others.
-/

import Mlink.Lib.BigEndian

namespace LengthPrefixed

/-- One message: the length, then the body. -/
def frame (width : Nat) (body : List UInt8) : List UInt8 :=
  BigEndian.encode width body.length ++ body

/-- The bytes of a list of messages. -/
def stream (width : Nat) (messages : List (List UInt8)) : List UInt8 :=
  messages.flatMap (frame width)

variable {width : Nat}

@[simp]
theorem stream_nil : stream width [] = [] := rfl

@[simp]
theorem stream_cons (body : List UInt8) (messages : List (List UInt8)) :
    stream width (body :: messages) = frame width body ++ stream width messages := rfl

@[simp]
theorem stream_append (first second : List (List UInt8)) :
    stream width (first ++ second) = stream width first ++ stream width second :=
  List.flatMap_append

/-- Frames that fit start a byte string in one way only. -/
theorem frame_append_inj {first second : List UInt8} {left right : List UInt8}
    (hfirst : first.length < 256 ^ width) (hsecond : second.length < 256 ^ width)
    (same : frame width first ++ left = frame width second ++ right) :
    first = second ∧ left = right := by
  rw [frame, frame, List.append_assoc, List.append_assoc] at same
  obtain ⟨hlength, hrest⟩ := List.append_inj same (by simp)
  exact List.append_inj hrest (BigEndian.encode_inj hfirst hsecond hlength)

/-- What a stream starts with is its first message. -/
theorem eq_cons_of_stream_eq {messages : List (List UInt8)} {body rest : List UInt8}
    (positive : 0 < width) (fits : ∀ message ∈ messages, message.length < 256 ^ width)
    (hbody : body.length < 256 ^ width) (whole : stream width messages = frame width body ++ rest) :
    ∃ later, messages = body :: later ∧ rest = stream width later := by
  cases messages with
  | nil =>
      have hlength := congrArg List.length whole
      simp [frame] at hlength
      omega
  | cons message later =>
      rw [stream_cons] at whole
      obtain ⟨rfl, hrest⟩ := frame_append_inj (fits message List.mem_cons_self) hbody whole
      exact ⟨later, rfl, hrest.symm⟩

end LengthPrefixed
