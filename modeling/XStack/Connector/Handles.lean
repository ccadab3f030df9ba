import XStack.Connector.Limit
import XStack.Connector.Transports
import XStack.Data.Counted

/-!
# Streams in use keep their connections open

The pool purges the connections that report no active stream.  What they report is a counter that
the handles of a connection share with its streams: `TlsStream::new` and `QuicP2pStream::new` raise
it, and `drop` lowers it.  In the same way the connection handles of a transport share the counter
behind its `activities`, which `TlsConn::new`, `QuicP2pConn::new` and `DriverConnection::clone`
raise.

The counters are not behind the mutex of the pool.  So here `check_limits` is not one step: it
visits the connections one after the other, and removes those that it has found closed or idle after
it has visited them all.  Any number of tasks create, clone and drop handles and streams meanwhile,
each access to a counter being one step; a stream that the multiplexer has opened or accepted is
counted in a step of its own, and nothing protects its connection before.  The lookups change
nothing, and are left out.

The accesses are interleaved as if they were sequentially consistent.  The code asks for relaxed
ones; what a load may then see of a `fetch_add` that was made just before is not modelled.

## Main definitions

* `HandlesState`, `handlesLts` : the handles, the streams and the pool.
* `HandlesState.Counts` : the counters are the numbers of handles and streams.
* `HandlesOp.Spares` : an operation does not drop a stream, or close its connection on purpose.

## Main results

* `poolLts_store` : an `add` that purges nothing is possible at any time.
* `handlesLts_good` : every pool is one that the operations reach as single steps.
* `streams_keep_connections` : the counters are right, and protect the connections in use.
-/

namespace XStack

/-- A handle to a connection, made by a transport. -/
structure ConnHandle where
  transport : TransportKind
  conn : P2pConn
  deriving DecidableEq, Repr

/-- The stream that `DriverConnection::connect` or `accept` makes of a stream of the
multiplexer. -/
def ConnHandle.stream (handle : ConnHandle) (id : String) : ProtocolStream :=
  ⟨id, handle.conn.id, handle.conn.publicKey, handle.conn.peerAddr⟩

/-- An `add` that has locked the pool. -/
structure Adding where
  conn : P2pConn
  inbound : Bool
  /-- The entries that `check_limits` has not visited yet. -/
  rest : List (String × P2pConn)
  /-- The ids in `removed`. -/
  removed : List String

/-- The connections of a switch and its pool. -/
structure HandlesState where
  /-- The handles, and `activities` of each transport. -/
  handles : Counted ConnHandle TransportKind
  /-- The streams, and the counter of each connection. -/
  streams : Counted ProtocolStream String
  /-- The streams that have been opened or accepted and are about to be counted. -/
  opened : List ProtocolStream
  /-- `DriverConnection::is_closed`, by connection id. -/
  closed : String → Bool
  pool : RawConnPool
  /-- The task that is adding a connection. -/
  adding : Option Adding

namespace HandlesState

/-- `DriverTransport::activities`. -/
def activities (s : HandlesState) : TransportKind → UInt64
  | .dnsaddr => 0
  | kind => s.handles.counter kind

/-- What the connections report: `is_closed` and `actives`. -/
def links (s : HandlesState) : Links := fun id => ⟨s.closed id, (s.streams.counter id).toNat⟩

/-- What the pool works with. -/
def net (s : HandlesState) : PoolState := ⟨s.pool, s.links⟩

/-- The ids of the connections that are about to be purged. -/
def marked (s : HandlesState) : List String := (s.adding.map Adding.removed).getD []

/-- The state after the pool has been changed, and connections have been closed with it. -/
def after (s : HandlesState) (net : PoolState) (adding : Option Adding) : HandlesState :=
  { s with pool := net.pool, closed := fun id => (net.links id).closed, adding := adding }

end HandlesState

/-- What happens to the handles, the streams and the pool. -/
inductive HandlesOp where
  /-- `TlsConn::new` or `QuicP2pConn::new`. -/
  | newConn (handle : ConnHandle)
  /-- `DriverConnection::clone`. -/
  | clone (handle : ConnHandle)
  | dropConn (handle : ConnHandle)
  /-- The multiplexer opens or accepts a stream. -/
  | opened (stream : ProtocolStream)
  /-- `TlsStream::new` or `QuicP2pStream::new`. -/
  | newStream (stream : ProtocolStream)
  | dropStream (stream : ProtocolStream)
  /-- `DriverConnection::close`, or the connection dies. -/
  | close (id : String)
  /-- `add` locks the pool, and compares its size with the limit. -/
  | add (order : Shuffle (String × P2pConn)) (conn : P2pConn) (inbound : Bool)
  /-- `check_limits` looks at a connection. -/
  | visit (entry : String × P2pConn)
  /-- It removes one. -/
  | purge (id : String)
  /-- `add` inserts its connection. -/
  | store
  /-- `remove`, called by `close` or `replace`. -/
  | remove (id : String)

section

variable [Libp2p]

/-- The steps; all connections are among `E`. -/
inductive HandlesStep (E : Established) : HandlesState → HandlesOp → HandlesState → Prop
  | newConn {s : HandlesState} {handle : ConnHandle} : handle.transport ≠ .dnsaddr →
      handle.conn ∈ E.conns → HandlesStep E s (.newConn handle)
        { s with handles := s.handles.create ConnHandle.transport handle }
  | clone {s : HandlesState} {handle : ConnHandle} : handle ∈ s.handles.live →
      HandlesStep E s (.clone handle)
        { s with handles := s.handles.create ConnHandle.transport handle }
  | dropConn {s : HandlesState} {handle : ConnHandle} : handle ∈ s.handles.live →
      HandlesStep E s (.dropConn handle)
        { s with handles := s.handles.drop ConnHandle.transport handle }
  | opened {s : HandlesState} {handle : ConnHandle} (id : String) : handle ∈ s.handles.live →
      HandlesStep E s (.opened (handle.stream id)) { s with opened := handle.stream id :: s.opened }
  | newStream {s : HandlesState} {stream : ProtocolStream} : stream ∈ s.opened →
      HandlesStep E s (.newStream stream)
        { s with
          opened := s.opened.erase stream
          streams := s.streams.create ProtocolStream.connId stream }
  | dropStream {s : HandlesState} {stream : ProtocolStream} : stream ∈ s.streams.live →
      HandlesStep E s (.dropStream stream)
        { s with streams := s.streams.drop ProtocolStream.connId stream }
  | close {s : HandlesState} (id : String) :
      HandlesStep E s (.close id) { s with closed := Function.update s.closed id true }
  | add {s : HandlesState} (order conn inbound) : s.adding = none → conn ∈ E.conns →
      HandlesStep E s (.add order conn inbound)
        { s with adding := some ⟨conn, inbound,
            if s.pool.maxPoolSize < s.pool.len then order.run s.pool.conns.iter else [], []⟩ }
  | visit {s : HandlesState} {conn inbound entry rest removed} :
      s.adding = some ⟨conn, inbound, entry :: rest, removed⟩ →
      HandlesStep E s (.visit entry)
        { s with adding := some ⟨conn, inbound, rest,
            if s.links.isClosed entry.2 || s.links.actives entry.2 == 0 then removed ++ [entry.1]
            else removed⟩ }
  | purge {s : HandlesState} {conn inbound id removed pool links} :
      s.adding = some ⟨conn, inbound, [], id :: removed⟩ →
      s.pool.remove s.links id = .ok (pool, links) →
      HandlesStep E s (.purge id) (s.after ⟨pool, links⟩ (some ⟨conn, inbound, [], removed⟩))
  | store {s : HandlesState} {conn inbound} : s.adding = some ⟨conn, inbound, [], []⟩ →
      HandlesStep E s .store { s with pool := s.pool.store conn inbound, adding := none }
  | remove {s : HandlesState} {pool links} (id) : s.adding = none →
      s.pool.remove s.links id = .ok (pool, links) →
      HandlesStep E s (.remove id) (s.after ⟨pool, links⟩ none)

/-- The runs of a switch with an empty pool of the given size and no connections. -/
def handlesLts (E : Established) (maxPoolSize : ℕ) : Lts HandlesState HandlesOp where
  init s := s.handles = .new ∧ s.streams = .new ∧ s.opened = [] ∧ s.pool = .new maxPoolSize ∧
    s.adding = none
  step := HandlesStep E

end

/-! ### The counters -/

namespace HandlesState

/-- The counters are the numbers of handles and streams, as far as these fit into them. -/
structure Counts (s : HandlesState) : Prop where
  /-- `activities` is the number of connection handles, clones included. -/
  activities : ∀ kind, (s.activities kind).toNat =
    s.handles.live.countP (·.transport = kind) % UInt64.size
  /-- `actives` is the number of streams. -/
  actives : ∀ id, (s.links id).actives = s.streams.live.countP (·.connId = id) % UInt64.size

/-- What holds of the counters in every state. -/
structure Exact (s : HandlesState) : Prop where
  handles : s.handles.Exact ConnHandle.transport
  streams : s.streams.Exact ProtocolStream.connId
  /-- The connections that `DnsAddr` dials are made by other transports. -/
  not_dnsaddr : ∀ handle ∈ s.handles.live, handle.transport ≠ .dnsaddr

variable {s : HandlesState}

theorem Exact.counts (h : s.Exact) : s.Counts where
  activities kind := by
    rw [← Counted.alive, ← h.handles.toNat]
    cases kind with
    | tcp | quic | circuit => rfl
    | dnsaddr =>
      have hnone := Counted.alive_eq_zero.2 h.not_dnsaddr
      rw [h.handles .dnsaddr, hnone]
      rfl
  actives id := h.streams.toNat id

/-- There are fewer streams than the counters can count. -/
def FewStreams (s : HandlesState) : Prop := s.streams.live.length < UInt64.size

theorem Exact.actives_eq_zero (h : s.Exact) (hfew : s.FewStreams) {conn : P2pConn} :
    s.links.actives conn = 0 ↔ ∀ stream ∈ s.streams.live, stream.connId ≠ conn.id := by
  rw [← Counted.alive_eq_zero, ← h.streams.toNat_eq hfew]
  rfl

end HandlesState

section

variable [Libp2p] {E : Established} {maxPoolSize : ℕ}

theorem HandlesStep.exact {s s' : HandlesState} {op : HandlesOp} (h : s.Exact)
    (hst : HandlesStep E s op s') : s'.Exact := by
  cases hst with
  | newConn hkind =>
    refine ⟨h.handles.create _, h.streams, fun handle hmem => ?_⟩
    rcases List.mem_cons.1 hmem with rfl | hmem
    · exact hkind
    · exact h.not_dnsaddr handle hmem
  | clone hlive =>
    refine ⟨h.handles.create _, h.streams, fun handle hmem => ?_⟩
    rcases List.mem_cons.1 hmem with rfl | hmem
    · exact h.not_dnsaddr _ hlive
    · exact h.not_dnsaddr handle hmem
  | dropConn hlive =>
    exact ⟨h.handles.drop hlive, h.streams,
      fun handle hmem => h.not_dnsaddr handle (List.mem_of_mem_erase hmem)⟩
  | newStream => exact ⟨h.handles, h.streams.create _, h.not_dnsaddr⟩
  | dropStream hlive => exact ⟨h.handles, h.streams.drop hlive, h.not_dnsaddr⟩
  | opened | close | add | visit | purge | store | remove =>
    exact ⟨h.handles, h.streams, h.not_dnsaddr⟩

theorem handlesLts_exact {s : HandlesState} (h : (handlesLts E maxPoolSize).Reachable s) :
    s.Exact := by
  refine h.invariant (fun s hs => ?_) fun _ _ _ hexact hst => hst.exact hexact
  obtain ⟨hhandles, hstreams, -⟩ := hs
  refine ⟨hhandles ▸ Counted.exact_new, hstreams ▸ Counted.exact_new, fun handle hmem => ?_⟩
  rw [hhandles] at hmem
  cases hmem

/-! ### The pool -/

/-- The status of finitely many connections can change in any way. -/
theorem poolLts_status {pool : RawConnPool} {links links' : Links}
    (hreach : (poolLts E maxPoolSize).Reachable ⟨pool, links⟩) (ids : List String)
    (hlinks : ∀ id ∉ ids, links' id = links id) :
    (poolLts E maxPoolSize).Reachable ⟨pool, links'⟩ := by
  induction ids generalizing links with
  | nil =>
    have hsame : links' = links := by
      funext id
      exact hlinks id List.not_mem_nil
    exact hsame ▸ hreach
  | cons id₀ ids ih =>
    refine ih (hreach.snoc (PoolStep.status id₀ (links' id₀))) fun id hid => ?_
    by_cases heq : id = id₀
    · rw [heq, Function.update_self]
    · rw [Function.update_of_ne heq, hlinks id (List.not_mem_cons_of_ne_of_not_mem heq hid)]

/-- **An `add` that purges nothing is possible at any time**: all pooled connections may have been
in use when `check_limits` visited them. -/
theorem poolLts_store {pool : RawConnPool} {links : Links}
    (hreach : (poolLts E maxPoolSize).Reachable ⟨pool, links⟩) {conn : P2pConn}
    (hE : conn ∈ E.conns) (inbound : Bool) :
    (poolLts E maxPoolSize).Reachable ⟨pool.store conn inbound, links⟩ := by
  have hkeyed : pool.Keyed := (poolLts_good hreach).1.keyed
  let ids := pool.conns.iter.map Prod.fst
  let busy : Links := fun id => if id ∈ ids then ⟨false, 1⟩ else links id
  have hbusy : (poolLts E maxPoolSize).Reachable ⟨pool, busy⟩ :=
    poolLts_status hreach ids fun id hid => if_neg hid
  have hspared : ∀ id, id ∉ pool.purgeable busy .id := by
    intro id hmem
    obtain ⟨c, hc, hidle⟩ := RawConnPool.mem_purgeable.1 hmem
    have hid : c.id ∈ ids := by
      rw [hkeyed id c hc]
      exact List.mem_map.2 ⟨(id, c), HashMap.mem_iter.2 hc, rfl⟩
    have hstatus : busy c.id = ⟨false, 1⟩ := if_pos hid
    rw [Links.isClosed, Links.actives, hstatus] at hidle
    rcases hidle with hclosed | hactives
    · cases hclosed
    · cases hactives
  have hadd : pool.add busy .id conn inbound = .ok (pool.store conn inbound, busy) := by
    have hnone : pool.purgeable busy .id = [] := List.eq_nil_iff_forall_not_mem.2 hspared
    unfold RawConnPool.add RawConnPool.checkLimits
    rw [hnone]
    split_ifs <;> rfl
  refine poolLts_status (hbusy.snoc (PoolStep.add .id conn inbound hE hadd)) ids fun id hid => ?_
  exact (if_neg hid).symm

/-- The pool is one that its operations reach, and a task adds a connection of `E`. -/
structure HandlesState.Good (E : Established) (maxPoolSize : ℕ) (s : HandlesState) : Prop where
  reachable : (poolLts E maxPoolSize).Reachable s.net
  conn : ∀ adding, s.adding = some adding → adding.conn ∈ E.conns
  /-- `check_limits` finds the connections under their own ids. -/
  rest : ∀ adding, s.adding = some adding → ∀ entry ∈ adding.rest, entry.2.id = entry.1

variable {s s' : HandlesState}

theorem HandlesState.Good.keyed (h : s.Good E maxPoolSize) : s.pool.Keyed :=
  (poolLts_good h.reachable).1.keyed

theorem HandlesState.net_after {pool : RawConnPool} {links : Links} (hkeyed : s.pool.Keyed)
    {id : String} (he : s.pool.remove s.links id = .ok (pool, links)) (adding : Option Adding) :
    (s.after ⟨pool, links⟩ adding).net = ⟨pool, links⟩ := by
  obtain ⟨pool', links', he', -, -, -, hlinks⟩ := hkeyed.remove s.links id
  rw [he] at he'
  cases he'
  have hsame : (s.after ⟨pool, links⟩ adding).links = links := by
    funext id'
    have hactives : (links id').actives = (s.links id').actives := by
      rw [hlinks]
      split_ifs with hboth
      · rw [hboth.1]
      · rfl
    exact congrArg (ConnStatus.mk (links id').closed) hactives.symm
  exact congrArg (PoolState.mk pool) hsame

theorem HandlesState.Good.status (h : s.Good E maxPoolSize) (id : String)
    (hpool : s'.pool = s.pool) (hadding : s'.adding = s.adding)
    (hlinks : ∀ id', id' ≠ id → s'.links id' = s.links id') : s'.Good E maxPoolSize where
  reachable := by
    have hreach : (poolLts E maxPoolSize).Reachable ⟨s.pool, s'.links⟩ :=
      poolLts_status h.reachable [id] fun id' hid => hlinks id' (List.ne_of_not_mem_cons hid)
    unfold HandlesState.net
    rw [hpool]
    exact hreach
  conn := by
    rw [hadding]
    exact h.conn
  rest := by
    rw [hadding]
    exact h.rest

theorem HandlesStep.good {op : HandlesOp} (h : s.Good E maxPoolSize)
    (hst : HandlesStep E s op s') : s'.Good E maxPoolSize := by
  cases hst with
  | newConn | clone | dropConn | opened => exact ⟨h.reachable, h.conn, h.rest⟩
  | @newStream stream =>
    refine h.status stream.connId rfl rfl fun id hid => ?_
    simp [HandlesState.links, Counted.create, Function.update_of_ne hid]
  | @dropStream stream =>
    refine h.status stream.connId rfl rfl fun id hid => ?_
    simp [HandlesState.links, Counted.drop, Function.update_of_ne hid]
  | close closed =>
    refine h.status closed rfl rfl fun id hid => ?_
    simp [HandlesState.links, Function.update_of_ne hid]
  | add order conn inbound hfree hE =>
    refine ⟨h.reachable, fun adding heq => ?_, fun adding heq entry hmem => ?_⟩
    · cases heq
      exact hE
    · cases heq
      dsimp only at hmem
      split_ifs at hmem
      · exact h.keyed _ _ (HashMap.mem_iter.1 (order.mem_run.1 hmem))
      · cases hmem
  | visit hadding =>
    have hE := h.conn _ hadding
    refine ⟨h.reachable, fun adding heq => ?_, fun adding heq entry hmem => ?_⟩
    · cases heq
      exact hE
    · cases heq
      exact h.rest _ hadding entry (List.mem_cons_of_mem _ hmem)
  | purge hadding he =>
    have hE := h.conn _ hadding
    refine ⟨?_, fun adding heq => ?_, fun adding heq entry hmem => ?_⟩
    · rw [HandlesState.net_after h.keyed he]
      exact h.reachable.snoc (PoolStep.remove _ he)
    · cases heq
      exact hE
    · cases heq
      cases hmem
  | store hadding =>
    refine ⟨poolLts_store h.reachable (h.conn _ hadding) _, fun adding heq => ?_,
      fun adding heq => ?_⟩
    · cases heq
    · cases heq
  | remove id hfree he =>
    refine ⟨?_, fun adding heq => ?_, fun adding heq => ?_⟩
    · rw [HandlesState.net_after h.keyed he]
      exact h.reachable.snoc (PoolStep.remove id he)
    · cases heq
    · cases heq

/-- **The pool is used as its guarantees ask for**: whatever happens between the visits of
`check_limits`, the pool is one that its operations reach as single steps. -/
theorem handlesLts_good (h : (handlesLts E maxPoolSize).Reachable s) : s.Good E maxPoolSize := by
  refine h.invariant (fun s hs => ?_) fun _ _ _ hgood hst => hst.good hgood
  obtain ⟨-, -, -, hpool, hadding⟩ := hs
  refine ⟨⟨[], .start (s := s.net) hpool⟩, fun adding heq => ?_, fun adding heq => ?_⟩
  · rw [hadding] at heq
    cases heq
  · rw [hadding] at heq
    cases heq

/-! ### The streams -/

/-- The operation does not drop the stream, and neither closes its connection nor removes it by its
id. -/
def HandlesOp.Spares (stream : ProtocolStream) : HandlesOp → Prop
  | .dropStream x => x ≠ stream
  | .close id => id ≠ stream.connId
  | .remove id => id ≠ stream.connId
  | _ => True

/-- The stream is live, its connection is open and not about to be purged, and in the pool if it
was there before. -/
structure HandlesState.Holds (s₁ s : HandlesState) (stream : ProtocolStream) : Prop where
  live : stream ∈ s.streams.live
  opened : s.closed stream.connId = false
  spared : stream.connId ∉ s.marked
  pooled : (s₁.pool.conns.get stream.connId).isSome → (s.pool.conns.get stream.connId).isSome

theorem RawConnPool.Keyed.remove_other {pool pool' : RawConnPool} {links links' : Links}
    (h : pool.Keyed) {id id' : String} (he : pool.remove links id = .ok (pool', links'))
    (hother : id' ≠ id) : pool'.conns.get id' = pool.conns.get id' ∧ links' id' = links id' := by
  obtain ⟨pool₁, links₁, hremove, -, -, hconns, hlinks⟩ := h.remove links id
  rw [he] at hremove
  cases hremove
  exact ⟨(hconns id').trans (if_neg hother),
    (hlinks id').trans (if_neg fun hboth => hother hboth.1)⟩

/-- **What a visit marks**: a connection that is closed or has no stream that is counted. -/
theorem HandlesStep.visit_marks (hgood : s.Good E maxPoolSize) (hexact : s.Exact)
    (hfew : s.FewStreams) {entry : String × P2pConn} (hst : HandlesStep E s (.visit entry) s')
    (id : String) :
    id ∈ s'.marked ↔ id ∈ s.marked ∨ id = entry.1 ∧
      (s.closed id = true ∨ ∀ stream ∈ s.streams.live, stream.connId ≠ id) := by
  cases hst with
  | @visit conn inbound _ rest removed hadding =>
    have hid : entry.2.id = entry.1 := hgood.rest _ hadding entry List.mem_cons_self
    have hidle : (s.links.isClosed entry.2 || s.links.actives entry.2 == 0) = true ↔
        s.closed entry.1 = true ∨ ∀ stream ∈ s.streams.live, stream.connId ≠ entry.1 := by
      rw [Bool.or_eq_true, beq_iff_eq, hexact.actives_eq_zero hfew, hid, ← hid]
      rfl
    simp only [HandlesState.marked, hadding, Option.map_some, Option.getD_some]
    split_ifs with hmark
    · rw [hidle] at hmark
      rw [List.mem_append, List.mem_singleton]
      exact or_congr_right ⟨fun heq => ⟨heq, heq ▸ hmark⟩, fun hboth => hboth.1⟩
    · rw [hidle] at hmark
      refine ⟨Or.inl, fun hor => hor.resolve_right ?_⟩
      rintro ⟨rfl, hno⟩
      exact hmark hno

/-- **No step takes the connection away from a stream that it spares.** -/
theorem HandlesStep.holds {s₁ : HandlesState} {op : HandlesOp} {stream : ProtocolStream}
    (hgood : s.Good E maxPoolSize) (hexact : s.Exact) (hfew : s.FewStreams)
    (hspares : op.Spares stream) (h : s₁.Holds s stream) (hst : HandlesStep E s op s') :
    s₁.Holds s' stream := by
  cases hst with
  | newConn | clone | dropConn | opened => exact ⟨h.live, h.opened, h.spared, h.pooled⟩
  | newStream => exact ⟨List.mem_cons_of_mem _ h.live, h.opened, h.spared, h.pooled⟩
  | dropStream =>
    exact ⟨(List.mem_erase_of_ne (Ne.symm hspares)).2 h.live, h.opened, h.spared, h.pooled⟩
  | close id =>
    refine ⟨h.live, ?_, h.spared, h.pooled⟩
    exact (Function.update_of_ne (Ne.symm hspares) ..).trans h.opened
  | add order conn inbound => exact ⟨h.live, h.opened, List.not_mem_nil, h.pooled⟩
  | @visit conn inbound entry rest removed hadding =>
    refine ⟨h.live, h.opened, fun hmem => ?_, h.pooled⟩
    -- the stream is counted, so that the visit passes over its connection
    rw [(HandlesStep.visit hadding).visit_marks hgood hexact hfew] at hmem
    rcases hmem with hmem | ⟨-, hclosed | hidle⟩
    · exact h.spared hmem
    · exact absurd hclosed (ne_true_of_eq_false h.opened)
    · exact hidle stream h.live rfl
  | @purge conn inbound id removed pool links hadding he =>
    have hspared := h.spared
    simp only [HandlesState.marked, hadding, Option.map_some, Option.getD_some] at hspared
    obtain ⟨hne, hnot⟩ := not_or.1 (List.mem_cons.not.1 hspared)
    obtain ⟨hconns, hlinks⟩ := hgood.keyed.remove_other he hne
    refine ⟨h.live, ?_, hnot, fun hpooled => ?_⟩
    · exact (congrArg ConnStatus.closed hlinks).trans h.opened
    · exact (congrArg Option.isSome hconns).trans (h.pooled hpooled)
  | @store conn inbound hadding =>
    refine ⟨h.live, h.opened, List.not_mem_nil, fun hpooled => ?_⟩
    show ((s.pool.store conn inbound).conns.get stream.connId).isSome
    rw [RawConnPool.store_conns, HashMap.get_insert]
    split_ifs
    · rfl
    · exact h.pooled hpooled
  | remove id hfree he =>
    obtain ⟨hconns, hlinks⟩ := hgood.keyed.remove_other he (Ne.symm hspares)
    refine ⟨h.live, ?_, List.not_mem_nil, fun hpooled => ?_⟩
    · exact (congrArg ConnStatus.closed hlinks).trans h.opened
    · exact (congrArg Option.isSome hconns).trans (h.pooled hpooled)

/-- **Streams in use keep their connections open.**  In every run, the pool is used as its
guarantees ask for, and the counters are the numbers of handles and streams.  As long as these fit
into the counters, a stream that is counted before `check_limits` visits its connection keeps the
connection open and in the pool, through everything but a deliberate `close` or `remove`; and a
visit marks exactly the connections that are closed or have no stream that is counted. -/
theorem streams_keep_connections :
    (∀ s, (handlesLts E maxPoolSize).Reachable s →
      (poolLts E maxPoolSize).Reachable s.net ∧ s.Counts) ∧
    (∀ s₁ h s stream, (handlesLts E maxPoolSize).Reachable s₁ → s₁.Holds s₁ stream →
      ((handlesLts E maxPoolSize).startingAt s₁).RunWhere
        (fun _ s op => s.FewStreams ∧ op.Spares stream) h s →
      s₁.Holds s stream) ∧
    ∀ s entry s', (handlesLts E maxPoolSize).Reachable s → s.FewStreams →
      (handlesLts E maxPoolSize).step s (.visit entry) s' →
      ∀ id, id ∈ s'.marked ↔ id ∈ s.marked ∨ id = entry.1 ∧
        (s.closed id = true ∨ ∀ stream ∈ s.streams.live, stream.connId ≠ id) := by
  refine ⟨fun s hreach => ⟨(handlesLts_good hreach).reachable, (handlesLts_exact hreach).counts⟩,
    fun s₁ h s stream hreach hholds hr => ?_, fun s entry s' hreach hfew hst => ?_⟩
  · suffices hboth : (handlesLts E maxPoolSize).Reachable s ∧ s₁.Holds s stream from hboth.2
    induction hr with
    | start hi =>
      cases hi
      exact ⟨hreach, hholds⟩
    | snoc _ hc hst ih =>
      obtain ⟨hreach, hholds⟩ := ih
      exact ⟨hreach.snoc hst, HandlesStep.holds (handlesLts_good hreach) (handlesLts_exact hreach)
        hc.1 hc.2 hholds hst⟩
  · exact HandlesStep.visit_marks (handlesLts_good hreach) (handlesLts_exact hreach) hfew hst

end

section Sample

attribute [local instance] Libp2p.ed25519

/-- A stream of `connA`. -/
def streamA : ProtocolStream := (ConnHandle.mk .tcp connA).stream "stream"

/-- The switch with a stream of `connA`, and with `connA` in a pool of size 0. -/
def oneStream : HandlesState where
  handles := Counted.new.create ConnHandle.transport ⟨.tcp, connA⟩
  streams := Counted.new.create ProtocolStream.connId streamA
  opened := []
  closed _ := false
  pool := (RawConnPool.new 0).store connA true
  adding := none

/-- `connA` is added again. -/
def addingAgain (rest : List (String × P2pConn)) : HandlesState :=
  { oneStream with adding := some ⟨connA, true, rest, []⟩ }

theorem reachable_oneStream : (handlesLts onlyA 0).Reachable oneStream := by
  have start : (handlesLts onlyA 0).Reachable ⟨.new, .new, [], fun _ => false, .new 0, none⟩ :=
    .start ⟨rfl, rfl, rfl, rfl, rfl⟩
  have dialled : (handlesLts onlyA 0).Reachable
      ⟨oneStream.handles, .new, [], fun _ => false, .new 0, none⟩ :=
    start.snoc (HandlesStep.newConn (fun h => by cases h) rfl)
  have opened := dialled.snoc (HandlesStep.opened "stream" (List.mem_singleton_self _))
  have counted : (handlesLts onlyA 0).Reachable { oneStream with pool := .new 0 } :=
    opened.snoc (HandlesStep.newStream (List.mem_singleton_self _))
  have locked := counted.snoc (HandlesStep.add .id connA true rfl rfl)
  exact locked.snoc (HandlesStep.store rfl)

/-- The pool is over its limit, but the connection is in use. -/
theorem streams_keep_connections_visited :
    ∃ entry, (handlesLts onlyA 0).step (addingAgain [entry]) (.visit entry) (addingAgain []) ∧
      oneStream.Holds (addingAgain []) streamA := by
  have hadd : (handlesLts onlyA 0).step oneStream (.add .id connA true)
      (addingAgain [("a", connA)]) := HandlesStep.add .id connA true rfl rfl
  have hvisit : (handlesLts onlyA 0).step (addingAgain [("a", connA)]) (.visit ("a", connA))
      (addingAgain []) := HandlesStep.visit rfl
  have hholds : oneStream.Holds oneStream streamA :=
    ⟨List.mem_singleton_self _, rfl, List.not_mem_nil, fun hpooled => hpooled⟩
  have hfew : 1 < UInt64.size := by decide
  have start : ((handlesLts onlyA 0).startingAt oneStream).RunWhere
      (fun _ s op => s.FewStreams ∧ op.Spares streamA) [] oneStream := .start rfl
  have hspares : HandlesOp.Spares streamA (.add .id connA true) ∧
      HandlesOp.Spares streamA (.visit ("a", connA)) := ⟨trivial, trivial⟩
  have visited := (start.snoc ⟨hfew, hspares.1⟩ hadd).snoc ⟨hfew, hspares.2⟩ hvisit
  exact ⟨_, hvisit, streams_keep_connections.2.1 _ _ _ _ reachable_oneStream hholds visited⟩

end Sample

end XStack
