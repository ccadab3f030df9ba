import XStack.Basic
import XStack.Data.HashMap
import XStack.Data.Random

/-!
# The peer book

`MemoryPeerBook` stores what is known about each peer, and an index from addresses to the peers that
listen on them.  Nothing in it is authenticated: the addresses of an entry may come from discovery
or from the peer itself.

* `get_insert`, `get_remove` : an insertion replaces the whole entry of the peer.
* `mem_candidates` : the peers that `choose_peers` chooses from.
-/

namespace XStack

/-- A peer id with what is known about the peer. -/
structure PeerInfo where
  /-- The peer's public id. -/
  id : PeerId
  /-- Its listening addresses. -/
  addrs : List Multiaddr
  /-- The protocols it supports. -/
  protos : List String
  /-- When it was last connected; set after a handshake. -/
  appear : Option SystemTime
  /-- When it was last disconnected. -/
  disappear : Option SystemTime
  deriving DecidableEq, Repr

/-- The peer book without its mutex. -/
structure RawMemoryPeerBook where
  /-- The entries by peer id. -/
  peerInfos : HashMap PeerId PeerInfo
  /-- The peer that listens on an address. -/
  peerAddrs : HashMap Multiaddr PeerId

namespace RawMemoryPeerBook

/-- `RawMemoryPeerBook::default`. -/
def default : RawMemoryPeerBook := ⟨∅, ∅⟩

/-- `MemoryPeerBook::insert`: the older entry, and the new book. -/
def insert (book : RawMemoryPeerBook) (info : PeerInfo) : Option PeerInfo × RawMemoryPeerBook :=
  let info := { info with disappear := none }
  let older := book.peerInfos.get info.id
  let peerAddrs := match older with
    | some old => old.addrs.foldl HashMap.remove book.peerAddrs
    | none => book.peerAddrs
  let peerAddrs :=
    info.addrs.foldl (fun peerAddrs raddr => peerAddrs.insert raddr info.id) peerAddrs
  (older, ⟨book.peerInfos.insert info.id info, peerAddrs⟩)

/-- `MemoryPeerBook::get`. -/
def get (book : RawMemoryPeerBook) (peerId : PeerId) : Option PeerInfo := book.peerInfos.get peerId

/-- `MemoryPeerBook::remove`: the entry, and the book without it. -/
def remove (book : RawMemoryPeerBook) (peerId : PeerId) : Option PeerInfo × RawMemoryPeerBook :=
  let older := book.peerInfos.get peerId
  let peerAddrs := match older with
    | some old => old.addrs.foldl HashMap.remove book.peerAddrs
    | none => book.peerAddrs
  (older, ⟨book.peerInfos.remove peerId, peerAddrs⟩)

/-- The book with the entry of a peer changed, if it has one. -/
def modify (book : RawMemoryPeerBook) (peerId : PeerId) (update : PeerInfo → PeerInfo) :
    RawMemoryPeerBook :=
  match book.peerInfos.get peerId with
  | some info => { book with peerInfos := book.peerInfos.insert peerId (update info) }
  | none => book

/-- `MemoryPeerBook::appear`. -/
def appear (book : RawMemoryPeerBook) (peerId : PeerId) (timestamp : SystemTime) :
    RawMemoryPeerBook := book.modify peerId fun info => { info with appear := some timestamp }

/-- `MemoryPeerBook::disappear`. -/
def disappear (book : RawMemoryPeerBook) (peerId : PeerId) (timestamp : SystemTime) :
    RawMemoryPeerBook := book.modify peerId fun info => { info with disappear := some timestamp }

/-- `MemoryPeerBook::listen_on`. -/
def listenOn (book : RawMemoryPeerBook) (raddr : Multiaddr) : Option PeerId :=
  book.peerAddrs.get raddr

/-- The peers that `choose_peers` chooses from. -/
def candidates (book : RawMemoryPeerBook) (protocolId : String) : List PeerId :=
  book.peerInfos.iter.filterMap fun e => if protocolId ∈ e.2.protos then some e.2.id else none

/-- `MemoryPeerBook::choose_peers`; a random choice is the beginning of a random order. -/
def choosePeers (book : RawMemoryPeerBook) (rng : Shuffle PeerId) (protocolId : String)
    (maximun : ℕ) : List PeerId := (rng.run (book.candidates protocolId)).take maximun

theorem get_insert (book : RawMemoryPeerBook) (info : PeerInfo) (peerId : PeerId) :
    (book.insert info).2.get peerId =
      if peerId = info.id then some { info with disappear := none } else book.get peerId :=
  HashMap.get_insert book.peerInfos info.id peerId { info with disappear := none }

theorem get_remove (book : RawMemoryPeerBook) (peerId peerId' : PeerId) :
    (book.remove peerId).2.get peerId' = if peerId' = peerId then none else book.get peerId' :=
  HashMap.get_remove book.peerInfos peerId peerId'

theorem mem_candidates {book : RawMemoryPeerBook} {protocolId : String} {peerId : PeerId} :
    peerId ∈ book.candidates protocolId ↔
      ∃ key info, book.get key = some info ∧ protocolId ∈ info.protos ∧ info.id = peerId := by
  rw [candidates, List.mem_filterMap]
  constructor
  · rintro ⟨⟨key, info⟩, hmem, he⟩
    simp only [Option.ite_none_right_eq_some, Option.some.injEq] at he
    exact ⟨key, info, HashMap.mem_iter.1 hmem, he.1, he.2⟩
  · rintro ⟨key, info, hget, hproto, hid⟩
    exact ⟨(key, info), HashMap.mem_iter.2 hget, by simp [hproto, hid]⟩

theorem exists_mem_choosePeers {book : RawMemoryPeerBook} {protocolId : String} {peerId : PeerId}
    {maximun : ℕ} (hpos : 0 < maximun) :
    (∃ rng, peerId ∈ book.choosePeers rng protocolId maximun) ↔
      peerId ∈ book.candidates protocolId := by
  constructor
  · rintro ⟨rng, hmem⟩
    exact rng.mem_run.1 (List.mem_of_mem_take hmem)
  · intro hmem
    -- the order that puts this candidate first
    have hperm := (List.perm_cons_erase hmem).symm
    refine ⟨.single _ _ hperm, ?_⟩
    rw [choosePeers, Shuffle.single_run]
    obtain ⟨n, rfl⟩ := Nat.exists_eq_succ_of_ne_zero (Nat.ne_of_gt hpos)
    exact List.mem_cons_self

end RawMemoryPeerBook

end XStack
