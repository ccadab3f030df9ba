import XStack.Basic
import XStack.Data.HashMap
import XStack.Data.Random

/-!
# The connection pool

`RawConnPool` keeps the authenticated connections of a switch in three hash maps that its
operations update by hand: `conns` from connection ids to connections, `peers` from peer ids to the
ids of their connections, and `raddrs` from dialled addresses to peer ids.  `ConnPool` runs each
operation under one mutex, so an operation is one step of the model.

A connection dies, and its number of active streams changes, without the pool being told.  The
status of all connections is therefore a second component, `Links`, which the operations read and
which `remove` changes by closing what it removes.

The operations take the unspecified choices as arguments: the order in which `check_limits`
traverses the hash map, and the connection that `by_raddr` and `by_peer_id` pick at random.  A
failed `assert_eq!` or `expect` is an error of `Except Panic`.
-/

namespace XStack

/-- The state of one connection, shared by all its handles. -/
structure ConnStatus where
  /-- `DriverConnection::is_closed`. -/
  closed : Bool
  /-- `DriverConnection::actives`: the number of open streams. -/
  actives : ℕ
  deriving DecidableEq, Repr

/-- The state of every connection, by connection id. -/
abbrev Links := String → ConnStatus

namespace Links

/-- `DriverConnection::is_closed`. -/
def isClosed (links : Links) (conn : P2pConn) : Bool := (links conn.id).closed

/-- `DriverConnection::actives`. -/
def actives (links : Links) (conn : P2pConn) : ℕ := (links conn.id).actives

/-- `DriverConnection::close`. -/
def close (links : Links) (conn : P2pConn) : Links :=
  Function.update links conn.id { links conn.id with closed := true }

end Links

/-- The pool without its mutex. -/
structure RawConnPool where
  /-- The number of connections above which closed and idle ones are purged. -/
  maxPoolSize : ℕ
  /-- From the address a connection was dialled at to the peer found there. -/
  raddrs : HashMap Multiaddr PeerId
  /-- From peer ids to the ids of their pooled connections. -/
  peers : HashMap PeerId (List String)
  /-- The pooled connections by id. -/
  conns : HashMap String P2pConn

namespace RawConnPool

/-- `RawConnPool::new`. -/
def new (maxPoolSize : ℕ) : RawConnPool := ⟨maxPoolSize, ∅, ∅, ∅⟩

/-- `RawConnPool::len`. -/
def len (pool : RawConnPool) : ℕ := pool.conns.len

/-- The list of a peer without its first occurrence of `id`. -/
def withoutId (ids : List String) (id : String) : List String :=
  match ids.findIdx? (· == id) with
  | some index => ids.eraseIdx index
  | none => ids

variable [Libp2p]

/-- `RawConnPool::remove`. -/
def remove (pool : RawConnPool) (links : Links) (id : String) :
    Except Panic (RawConnPool × Links) :=
  match pool.conns.get id with
  | none => .ok (pool, links)
  | some conn =>
    if id ≠ conn.id then .error .assertEq
    else
      let peers := match pool.peers.get conn.peerId with
        | none => pool.peers
        | some ids =>
          let peers := pool.peers.remove conn.peerId
          let ids := withoutId ids id
          if ids.isEmpty then peers else peers.insert conn.peerId ids
      let links := if links.isClosed conn then links else links.close conn
      .ok ({ pool with
        conns := pool.conns.remove id
        raddrs := pool.raddrs.remove conn.peerAddr
        peers := peers }, links)

/-- The ids `check_limits` purges, in the order it visits them. -/
def purgeable (pool : RawConnPool) (links : Links) (order : Shuffle (String × P2pConn)) :
    List String :=
  ((order.run pool.conns.iter).filter fun e =>
    links.isClosed e.2 || links.actives e.2 == 0).map Prod.fst

/-- The loop over the ids to remove. -/
def removeAll : List String → RawConnPool × Links → Except Panic (RawConnPool × Links)
  | [], s => .ok s
  | id :: removed, (pool, links) => pool.remove links id >>= removeAll removed

/-- `RawConnPool::check_limits`. -/
def checkLimits (pool : RawConnPool) (links : Links) (order : Shuffle (String × P2pConn)) :
    Except Panic (RawConnPool × Links) :=
  if pool.maxPoolSize < pool.len then removeAll (pool.purgeable links order) (pool, links)
  else .ok (pool, links)

/-- The part of `add` after `check_limits`. -/
def store (pool : RawConnPool) (conn : P2pConn) (inbound : Bool) : RawConnPool :=
  match pool.conns.get conn.id with
  | some _ => { pool with conns := pool.conns.insert conn.id conn }
  | none =>
    { pool with
      conns := pool.conns.insert conn.id conn
      raddrs := if inbound then pool.raddrs else pool.raddrs.insert conn.peerAddr conn.peerId
      peers := match pool.peers.get conn.peerId with
        | some ids => pool.peers.insert conn.peerId (ids ++ [conn.id])
        | none => pool.peers.insert conn.peerId [conn.id] }

/-- `RawConnPool::add`. -/
def add (pool : RawConnPool) (links : Links) (order : Shuffle (String × P2pConn))
    (conn : P2pConn) (inbound : Bool) : Except Panic (RawConnPool × Links) :=
  (pool.checkLimits links order).map fun (pool, links) => (pool.store conn inbound, links)

omit [Libp2p] in
/-- Pick one of the listed connections at random. -/
def pick (pool : RawConnPool) (rng : Chooser String) (ids : List String) :
    Except Panic (Option P2pConn) :=
  match rng.choose ids with
  | none => .ok none
  | some id =>
    match pool.conns.get id with
    | some conn => .ok (some conn)
    | none => .error (.expect "consistency guarantee")

omit [Libp2p] in
/-- `RawConnPool::by_peer_id`. -/
def byPeerId (pool : RawConnPool) (rng : Chooser String) (peerId : PeerId) :
    Except Panic (Option P2pConn) :=
  match pool.peers.get peerId with
  | some ids => pool.pick rng ids
  | none => .ok none

omit [Libp2p] in
/-- `RawConnPool::by_raddr`. -/
def byRaddr (pool : RawConnPool) (rng : Chooser String) (raddr : Multiaddr) :
    Except Panic (Option P2pConn) :=
  match pool.raddrs.get raddr with
  | some peerId =>
    match pool.peers.get peerId with
    | some ids => pool.pick rng ids
    | none => .ok none
  | none => .ok none

end RawConnPool

end XStack
