import XStack.Basic

/-!
# Events

The events a switch raises.  A listener binds to the name of a kind of events.
-/

namespace XStack

/-- `AutoNAT`. -/
inductive AutoNAT where
  | publicNode
  | nat
  | unknown
  deriving DecidableEq, Repr

/-- `Event`. -/
inductive Event where
  /-- The connection state changed. -/
  | connected (connId : String) (peerId : PeerId)
  | handshakeSuccess (connId : String) (peerId : PeerId)
  | handshakeFailed (connId : String) (peerId : PeerId)
  /-- The network state changed. -/
  | network (state : AutoNAT)
  deriving DecidableEq, Repr

/-- `Event::to_name`. -/
def Event.toName : Event → String
  | .network _ => "/xstack/network"
  | .connected _ _ => "/xstack/connected"
  | .handshakeSuccess _ _ => "/xstack/handshake_success"
  | .handshakeFailed _ _ => "/xstack/handshake_failed"

end XStack
