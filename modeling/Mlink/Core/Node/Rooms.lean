/-
# Two nodes judge each other's rooms

A handshake carries one room, so a node that is in several names the first in
its set's order, and the peer looks for it in its own set. Whoever dials, both
ends name and judge in the same way; what each finds depends on the order of the
other's set.
-/

import Mlink.Core.Node.Connect

namespace Mlink.Core

open Mlink.Protocol

namespace Node

variable {node peer : Node}

end Node

end Mlink.Core
