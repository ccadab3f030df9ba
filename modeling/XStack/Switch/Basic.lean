import XStack.Async.Basic
import XStack.Book
import XStack.Connector.Basic
import XStack.Event.Basic
import XStack.Stream.Basic

/-!
# The switch

`Switch` owns the peer book, the stream dispatcher, the connection pool and the addresses under
which peers have seen it.  They are behind mutexes and shared by all its tasks, and together are the
state of the async code of the switch, `SwitchM`.
-/

namespace XStack

/-- A transport registered to a switch, as far as its selection goes. -/
structure Transport where
  /-- `DriverTransport::multiaddr_hint`. -/
  multiaddrHint : Multiaddr → Bool

/-- The configuration of a switch. -/
structure SwitchOptions where
  /-- The maximum length of rpc packets. -/
  maxPacketSize : ℕ
  /-- The registered transports. -/
  transports : List Transport

/-- `SwitchOptions::get_transport_by_address`. -/
def SwitchOptions.getTransportByAddress (ops : SwitchOptions) (laddr : Multiaddr) :
    Option Transport := ops.transports.find? fun transport => transport.multiaddrHint laddr

/-- The part of a switch that changes. -/
structure MutableSwitch where
  /-- The maximum length of the observed addresses buffer. -/
  maxObservedAddrsLen : ℕ
  /-- The addresses under which peers have observed this switch, oldest first. -/
  observedAddrs : List Multiaddr

/-- `MutableSwitch::new`. -/
def MutableSwitch.new (maxObservedAddrsLen : ℕ) : MutableSwitch := ⟨maxObservedAddrsLen, []⟩

/-- `MutableSwitch::set_observed_addrs`. -/
def MutableSwitch.setObservedAddrs (s : MutableSwitch) (addrs : List Multiaddr) : MutableSwitch :=
  addrs.foldl (fun s addr =>
    let observed :=
      if s.observedAddrs.length = s.maxObservedAddrsLen then s.observedAddrs.tail
      else s.observedAddrs
    { s with observedAddrs := observed ++ [addr] }) s

/-- What the tasks of a switch share. -/
structure SwitchState where
  /-- `peer_book`. -/
  peerBook : RawMemoryPeerBook
  /-- `mutable`. -/
  mutable : MutableSwitch
  /-- `stream_dispatcher`. -/
  streamDispatcher : RawMutexStreamDispatcher
  /-- `connector`. -/
  connector : RawConnPool
  /-- The connections. -/
  links : Links
  /-- The events raised so far. -/
  events : List Event

/-- The async code of a switch. -/
abbrev SwitchM := Async SwitchState Error Panic

namespace SwitchM

/-- Use the stream dispatcher. -/
def withDispatcher {α : Type}
    (f : RawMutexStreamDispatcher → Except Panic (α × RawMutexStreamDispatcher)) : SwitchM α :=
  .lock fun s => do
    let (a, raw) ← f s.streamDispatcher
    return (a, { s with streamDispatcher := raw })

/-- Use the connection pool. -/
def withPool {α : Type} (f : RawConnPool → Links → Except Panic (α × RawConnPool × Links)) :
    SwitchM α :=
  .lock fun s => do
    let (a, pool, links) ← f s.connector s.links
    return (a, { s with connector := pool, links := links })

theorem withDispatcher_does {α : Type}
    {f : RawMutexStreamDispatcher → Except Panic (α × RawMutexStreamDispatcher)} {s : SwitchState}
    {a : α} {raw : RawMutexStreamDispatcher} (h : f s.streamDispatcher = .ok (a, raw)) :
    (withDispatcher f).Does s a { s with streamDispatcher := raw } := by
  refine Async.Does.lock ?_
  rw [h]
  rfl

theorem withPool_does {α : Type}
    {f : RawConnPool → Links → Except Panic (α × RawConnPool × Links)} {s : SwitchState} {a : α}
    {pool : RawConnPool} {links : Links} (h : f s.connector s.links = .ok (a, pool, links)) :
    (withPool f).Does s a { s with connector := pool, links := links } := by
  refine Async.Does.lock ?_
  rw [h]
  rfl

/-- `EventMediator::raise`. -/
def raise (event : Event) : SwitchM Unit :=
  .lock fun s => .ok ((), { s with events := s.events ++ [event] })

/-- `Switch::set_observed_addrs`. -/
def setObservedAddrs (addrs : List Multiaddr) : SwitchM Unit :=
  .lock fun s => .ok ((), { s with mutable := s.mutable.setObservedAddrs addrs })

/-- `Switch::observed_addrs`. -/
def observedAddrs : SwitchM (List Multiaddr) := .lock fun s => .ok (s.mutable.observedAddrs, s)

/-- `Switch::insert_peer_info`. -/
def insertPeerInfo (info : PeerInfo) : SwitchM (Option PeerInfo) :=
  .lock fun s =>
    let (older, book) := s.peerBook.insert info
    .ok (older, { s with peerBook := book })

/-- `Switch::lookup_peer_info`. -/
def lookupPeerInfo (peerId : PeerId) : SwitchM (Option PeerInfo) :=
  .lock fun s => .ok (s.peerBook.get peerId, s)

end SwitchM

end XStack
