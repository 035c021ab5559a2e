/-
# Writers and readers in different modes

Each end picks its path by its own number of links, so a message may be written
by either path and read by either. Without encryption both writers put the same
body on the wire. The single-link reader undoes what the flags say; the session
reader takes the first four bytes for a number and the rest for the payload.
-/

import Mlink.Core.Node.LegacyRoundTrip
import Mlink.Core.Session.Quiet

namespace Mlink.Core

open Mlink.Protocol

namespace Node

variable {primitives : Primitives} {payload : Bytes}

end Node

end Mlink.Core
