/-
# Session sequence numbers and the dedup window

The session layer numbers its frames with a wrapping 32-bit counter, separate
from the 16-bit `Frame.seq`. The receiver keeps the highest number seen and a
128-bit map of the numbers just below it.
-/

import Mlink.Lib.Serial
import Mlink.Protocol.Types

namespace Mlink.Protocol

/-- The sender's wrapping counter. -/
structure SeqGen where
  nextSeq : UInt32
  deriving DecidableEq, Repr

namespace SeqGen

def new : SeqGen := ⟨0⟩

/-- Hand out the current number and advance. -/
def next (gen : SeqGen) : UInt32 × SeqGen := (gen.nextSeq, ⟨gen.nextSeq + 1⟩)

end SeqGen

/-- What the window makes of an observed number. -/
inductive Observation
  | accept
  | duplicate
  | stale
  deriving DecidableEq, Repr

/-- The window: bit `i` says that `last - i` has been seen. -/
structure DedupWindow where
  last : UInt32
  bits : BitVec 128
  seen : Bool
  deriving DecidableEq, Repr

namespace DedupWindow

def new : DedupWindow := ⟨0, 0, false⟩

/-- Observe a number: a step forward slides the window, a step back of at most
127 looks its bit up, anything older is stale. -/
def observe (window : DedupWindow) (seq : UInt32) : Observation × DedupWindow :=
  if window.seen = false then
    (.accept, ⟨seq, 1#128, true⟩)
  else
    let forward := Serial.distance seq window.last
    if forward ≠ 0 ∧ forward < 0x80000000 then
      let bits := if 128 ≤ forward then 1#128 else window.bits <<< forward ||| 1#128
      (.accept, ⟨seq, bits, true⟩)
    else if forward = 0 then
      (.duplicate, window)
    else
      let back := Serial.distance window.last seq
      if 128 ≤ back then
        (.stale, window)
      else
        let mask := 1#128 <<< back
        if window.bits &&& mask ≠ 0 then
          (.duplicate, window)
        else
          (.accept, { window with bits := window.bits ||| mask })

/-- The highest number seen and the map below it; `(0, 0)` before the first
observation. -/
def snapshot (window : DedupWindow) : UInt32 × BitVec 128 :=
  if window.seen = false then (0, 0) else (window.last, window.bits)

/-- The first observation is accepted and becomes the top. -/
theorem observe_of_not_seen {window : DedupWindow} (fresh : window.seen = false)
    (seq : UInt32) : window.observe seq = (.accept, ⟨seq, 1#128, true⟩) := by
  simp [observe, fresh]

end DedupWindow

end Mlink.Protocol
