/-
# The receive loop over failing links

The loop reports a link whose read failed and keeps it in the session, so the
next pass reads it again. With two links or more nothing bounds the reports;
with one, its failure ends the loop. A run is watched pass by pass, through all
the calls the peer reader makes: it calls again after every message and stops
at the first error.
-/

import Mlink.Core.Session.Quiet

namespace Mlink.Core

open Mlink.Protocol

namespace Session

/-! ## Passes and runs -/

/-- One pass of the loop: the session before and after, what the pass met and
what it returned. -/
structure TurnRecord where
  before : Session
  turn : Turn
  returned : Option (Result (UInt32 × Bytes))
  after : Session

namespace TurnRecord

/-- The links the pass reads: all that are attached. -/
def polled (record : TurnRecord) : List String := record.before.links.map Link.id

/-- The link whose read failed in this pass. -/
def failed (record : TurnRecord) : Option String :=
  match record.turn.wake with
  | .ready linkId (.error _) => if linkId ∈ record.polled then some linkId else none
  | _ => none

/-- The events the pass emitted. -/
def emitted (record : TurnRecord) : List SessionEvent :=
  record.after.events.drop record.before.events.length

end TurnRecord

section Pass

variable {session : Session} {turn : Turn}

end Pass

/-! ## Runs over one link -/

end Session

end Mlink.Core
