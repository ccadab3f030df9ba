import XStack.Kad.Key
import XStack.Lts.Basic
import Mathlib.Data.Finset.Insert
import Mathlib.Data.List.Sort
import Mathlib.Data.PNat.Notation

/-!
# The recursive lookup

`Recursively::route` asks the candidates in turn for the peers they know to be close to the key,
with a bounded number of queries outstanding, and collects the closest peers that answered.

It suspends only where it waits for the next answer.  `RouteState.next` is the code from one loop
test to the next, and `RouteState.answer` is the body of the inner loop, for an answer of any
outstanding query.  The history of a run lists what happened to the candidates and the answers.

`FuturesUnorderedMap` is modelled by the list of the peers whose query is outstanding; its `next`
yields any of them and removes it.
-/

namespace XStack

/-- `KBucketKey::from(peer_id).distance(key)`. -/
def KBucketKey.peerDistance [Sha256] (key : KBucketKey) (peerId : PeerId) : KBucketDistance :=
  (ofPeerId peerId).distance key

/-- `Routing`: an answer of the queried peer. -/
inductive Routing where
  | closest (peers : List PeerId)
  | finished
  deriving DecidableEq, Repr

/-- The context of a lookup. -/
structure Recursively where
  /-- The search key. -/
  key : KBucketKey
  /-- The closest peers that have answered. -/
  closestK : List PeerId
  /-- The peers that have been considered. -/
  queried : Finset PeerId
  /-- The candidates that are left. -/
  candidates : List PeerId
  /-- The number of queries that may be outstanding. -/
  concurrency : ℕ
  /-- The number of peers to collect. -/
  constK : ℕ

namespace Recursively

/-- `Recursively::new`. -/
def new (key : KBucketKey) (constK concurrency : ℕ+) (seeds : List PeerId) : Recursively where
  key
  closestK := []
  queried := ∅
  candidates := seeds
  concurrency
  constK

variable [Sha256]

/-- `Recursively::add_closest_k`. -/
def addClosestK (ctx : Recursively) (peerId : PeerId) : Recursively :=
  let closestK := (ctx.closestK ++ [peerId]).insertionSort
    fun lhs rhs => ctx.key.peerDistance lhs ≤ ctx.key.peerDistance rhs
  { ctx with
    closestK := if ctx.constK < closestK.length then closestK.take ctx.constK else closestK }

/-- `Recursively::is_closer`. -/
def isCloser (ctx : Recursively) (peerId : PeerId) : Bool :=
  if ctx.closestK.length < ctx.constK then true
  else
    match ctx.closestK.getLast? with
    | some last => ctx.key.peerDistance peerId < ctx.key.peerDistance last
    | none => true

/-- The loop over the peers named in an answer. -/
def learn (ctx : Recursively) : List PeerId → Recursively
  | [] => ctx
  | peerId :: peers =>
    if peerId ∈ ctx.queried then ctx.learn peers
    else if !ctx.isCloser peerId then ctx.learn peers
    else { ctx with candidates := ctx.candidates ++ [peerId] }.learn peers

end Recursively

/-- Where the lookup is. -/
inductive RoutePc where
  /-- At the test of the outer loop. -/
  | outer
  /-- At the test of the inner loop. -/
  | inner
  /-- It has returned. -/
  | returned (closestK : List PeerId)
  /-- It has panicked. -/
  | panicked (panic : Panic)
  deriving DecidableEq, Repr

/-- The state of a lookup. -/
structure RouteState where
  /-- The context. -/
  ctx : Recursively
  /-- The peers whose query is outstanding. -/
  unorderd : List PeerId
  /-- Where the lookup is. -/
  pc : RoutePc

/-- What happens in a lookup. -/
inductive RouteEvent where
  /-- A candidate is passed to `RoutingAlogrithm::route`. -/
  | query (peerId : PeerId)
  /-- A candidate is dropped: it has been considered before, or it is too far away. -/
  | skip (peerId : PeerId)
  /-- The inner loop ends. -/
  | proceed
  /-- The query of a peer completes. -/
  | answered (peerId : PeerId) (result : Except Error Routing)
  /-- No candidate is left, and the lookup returns. -/
  | done
  /-- `next` yields nothing. -/
  | starve

namespace RouteState

/-- The condition of the inner loop. -/
def waits (s : RouteState) : Bool :=
  (s.ctx.candidates.isEmpty && !s.unorderd.isEmpty) || s.unorderd.length == s.ctx.concurrency

variable [Sha256]

/-- The code between two loop tests that does not wait for an answer. -/
def next (s : RouteState) : Option (RouteEvent × RouteState) :=
  match s.pc with
  | .outer =>
    match s.ctx.candidates with
    | [] => some (.done, { s with pc := .returned s.ctx.closestK })
    | peerId :: candidates =>
      let ctx := { s.ctx with candidates }
      if peerId ∈ ctx.queried then some (.skip peerId, ⟨ctx, s.unorderd, .inner⟩)
      else
        let ctx := { ctx with queried := insert peerId ctx.queried }
        if !ctx.isCloser peerId then some (.skip peerId, ⟨ctx, s.unorderd, .inner⟩)
        else some (.query peerId, ⟨ctx, s.unorderd ++ [peerId], .inner⟩)
  | .inner =>
    if s.waits then
      -- `unorderd.next().await.unwrap()`
      if s.unorderd.isEmpty then some (.starve, { s with pc := .panicked .unwrap }) else none
    else some (.proceed, { s with pc := .outer })
  | .returned _ => none
  | .panicked _ => none

/-- The body of the inner loop, for the answer of a peer. -/
def answer (s : RouteState) (peerId : PeerId) (result : Except Error Routing) :
    Option RouteState :=
  if s.pc = .inner ∧ s.waits ∧ peerId ∈ s.unorderd then
    let unorderd := s.unorderd.erase peerId
    match result with
    | .ok (.closest peers) => some ⟨(s.ctx.learn peers).addClosestK peerId, unorderd, .inner⟩
    | .ok .finished =>
      let ctx := s.ctx.addClosestK peerId
      some ⟨ctx, unorderd, .returned ctx.closestK⟩
    | .error _ => some ⟨s.ctx, unorderd, .inner⟩
  else none

end RouteState

/-- The runs of a lookup. -/
def routeLts [Sha256] (key : KBucketKey) (constK concurrency : ℕ+) (seeds : List PeerId) :
    Lts RouteState RouteEvent where
  init s := s = ⟨.new key constK concurrency seeds, [], .outer⟩
  step s event s' := s.next = some (event, s') ∨
    ∃ peerId result, event = .answered peerId result ∧ s.answer peerId result = some s'

end XStack
