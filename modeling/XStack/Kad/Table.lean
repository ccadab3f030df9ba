import XStack.Kad.Key
import Mathlib.Algebra.Ring.Nat

/-!
# The routing table

`RawKBucketTable` holds the k-buckets in the order in which they were first needed, and an array
that maps the 256 possible k-indices to positions in that list.  `KBucketTable` adds a counter of
the stored peers, which `insert_prv` keeps up to date by looking at what `try_insert` reports.

`insert_prv` holds the lock of the table until the counter is updated, so it is one step.
`KBucketTable::insert` runs it once, and if it reports a peer it spawns a task that pings this peer
and then runs `insert_prv` again; what the task inserts is `PingTask.reinserted`.

The counter is an unbounded number: there can be no `2^64` peers in memory.  Only subtraction can
wrap around.
-/

namespace XStack

/-- A k-bucket: peers, the least recently seen first. -/
structure KBucket (K : ℕ) where
  /-- The queue. -/
  peers : List PeerId
  deriving DecidableEq, Repr

namespace KBucket

variable {K : ℕ}

/-- `KBucket::new`. -/
def new (peerId : PeerId) : KBucket K := ⟨[peerId]⟩

/-- `KBucket::len`. -/
def len (b : KBucket K) : ℕ := b.peers.length

/-- `KBucket::try_insert`: what it reports and the bucket after it. -/
def tryInsert (b : KBucket K) (peerId : PeerId) : Option PeerId × KBucket K :=
  match b.peers.findIdx? (· == peerId) with
  | some index => (some peerId, ⟨b.peers.eraseIdx index ++ [peerId]⟩)
  | none =>
    -- a full bucket loses its head, and the new peer is left out
    if b.len = K then (b.peers.head?, ⟨b.peers.tail⟩)
    else (none, ⟨b.peers ++ [peerId]⟩)

end KBucket

/-- The table without its lock. -/
structure RawKBucketTable (K : ℕ) where
  /-- The key of the local node. -/
  localKey : KBucketKey
  /-- The buckets, in the order of their creation. -/
  kBuckets : List (KBucket K)
  /-- The position of the bucket of a k-index. -/
  kIndex : Vector (Option ℕ) 256

namespace RawKBucketTable

variable {K : ℕ}

/-- A table without peers. -/
def empty (localKey : KBucketKey) : RawKBucketTable K := ⟨localKey, [], .replicate 256 none⟩

/-- `RawKBucketTable::try_insert`. -/
def tryInsert [Sha256] (t : RawKBucketTable K) (peerId : PeerId) :
    Except Panic (Option PeerId × RawKBucketTable K) :=
  match ((KBucketKey.ofPeerId peerId).distance t.localKey).kIndex with
  | none => .error (.expect "Insert local peer's id")
  | some kIndex =>
    match t.kIndex[kIndex]? with
    | none => .error .indexOutOfBounds
    | some (some index) =>
      match t.kBuckets[index]? with
      | none => .error .indexOutOfBounds
      | some b =>
        let (r, b) := b.tryInsert peerId
        .ok (r, { t with kBuckets := t.kBuckets.set index b })
    | some none =>
      let kBuckets := t.kBuckets ++ [.new peerId]
      .ok (none, { t with
        kBuckets := kBuckets
        kIndex := t.kIndex.setIfInBounds kIndex (some (kBuckets.length - 1)) })

end RawKBucketTable

/-- `AtomicUsize::fetch_add(1)`. -/
def fetchAdd (n : ℕ) : ℕ := n + 1

/-- `AtomicUsize::fetch_sub(1)`. -/
def fetchSub (n : ℕ) : ℕ := if n = 0 then 2 ^ 64 - 1 else n - 1

/-- The table and its counter. -/
structure KBucketTable (K : ℕ) where
  /-- The number of stored peers. -/
  len : ℕ
  /-- The table. -/
  table : RawKBucketTable K

/-- A ping task: `insert` was called for a peer, and reported another one to be pinged. -/
structure PingTask where
  /-- The peer `insert` was called for. -/
  peerId : PeerId
  /-- The peer that is pinged. -/
  lru : PeerId
  deriving DecidableEq, Repr

/-- The peer that a ping task inserts: the pinged one if the ping failed, the other one if it
succeeded. -/
def PingTask.reinserted (task : PingTask) (success : Bool) : PeerId :=
  if success then task.peerId else task.lru

namespace KBucketTable

variable {K : ℕ} [Sha256]

/-- The table `KBucketTable::bind` creates. -/
def bind (localId : PeerId) : Except Panic (KBucketTable K) :=
  if 0 < K then .ok ⟨0, .empty (.ofPeerId localId)⟩
  else .error (.assert "the k must greater than zero")

/-- `KBucketTable::insert_prv`. -/
def insertPrv (t : KBucketTable K) (peerId : PeerId) :
    Except Panic (Option PeerId × KBucketTable K) :=
  (t.table.tryInsert peerId).map fun
    | (some pop, table) => (some pop, ⟨if pop ≠ peerId then fetchSub t.len else t.len, table⟩)
    | (none, table) => (none, ⟨fetchAdd t.len, table⟩)

/-- `KBucketTable::insert`: the ping task it spawns, if any, and the table. -/
def insert (t : KBucketTable K) (peerId : PeerId) :
    Except Panic (Option PingTask × KBucketTable K) :=
  (t.insertPrv peerId).map fun (lru, t) => (lru.map (PingTask.mk peerId), t)

/-- The end of a ping task. -/
def finish (t : KBucketTable K) (task : PingTask) (success : Bool) :
    Except Panic (KBucketTable K) :=
  (t.insertPrv (task.reinserted success)).map Prod.snd

end KBucketTable

end XStack
