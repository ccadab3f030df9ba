import XStack.Connector.Basic
import XStack.Data.Index
import XStack.Ed25519
import XStack.Lts.Basic

/-!
# The consistency guarantee of the pool

`RawConnPool` relies on its three maps agreeing with each other: `remove` asserts it, `by_raddr`
and `by_peer_id` `expect` it.  Here it is proved for every state that the operations reach from an
empty pool, whatever connections they are given and whatever happens to these connections in
between.

The maps are related by `Consistent`: `peers` is a secondary index of `conns` by peer id
(`XStack.Data.Index`), and every entry of `raddrs` is backed by a pooled connection.  Each operation
has one lemma that says what it does to the pool and that it keeps `Consistent`; no later proof
unfolds the operations again.

## Main definitions

* `Established` : the connections of a run, whose ids identify them.
* `poolLts` : the pool with its operations, together with connections changing their status.
* `RawConnPool.Consistent` : the invariant, in terms of indices.
* `RawConnPool.Guarantee` : the same, clause by clause.

## Main results

* `RawConnPool.remove_spec`, `checkLimits_spec`, `add_spec` : the updates.
* `RawConnPool.byPeerId_spec`, `byRaddr_spec` : the lookups.
* `poolLts_good` : every reachable pool is consistent.
-/

namespace XStack

/-- The connections a switch has established: an id is drawn once for each of them. -/
structure Established where
  /-- The connections. -/
  conns : Set P2pConn
  /-- Handles with the same id belong to the same connection. -/
  unique : ∀ c ∈ conns, ∀ d ∈ conns, c.id = d.id →
    c.publicKey = d.publicKey ∧ c.peerAddr = d.peerAddr

/-- A pool and the status of the connections. -/
structure PoolState where
  /-- The pool. -/
  pool : RawConnPool
  /-- The connections. -/
  links : Links

/-- The operations on a pool with their answers.  A lookup records its answer and what `is_closed`
says of it at that moment. -/
inductive PoolOp where
  /-- `add`: an inbound connection was accepted, or an outbound one was dialled. -/
  | add (order : Shuffle (String × P2pConn)) (conn : P2pConn) (inbound : Bool)
  /-- `remove`: a connection is closed or replaced. -/
  | remove (id : String)
  /-- `check_limits`. -/
  | checkLimits (order : Shuffle (String × P2pConn))
  /-- `by_raddr`, called by `connect`. -/
  | byRaddr (rng : Chooser String) (raddr : Multiaddr) (answer : Option P2pConn) (closed : Bool)
  /-- `by_peer_id`, called by `connect_to`. -/
  | byPeerId (rng : Chooser String) (peerId : PeerId) (answer : Option P2pConn) (closed : Bool)
  /-- The status of a connection changes: it dies, or streams are opened or closed on it. -/
  | status (id : String) (status : ConnStatus)

section Semantics

variable [Libp2p]

/-- The steps of a pool whose connections are among `E`. -/
inductive PoolStep (E : Established) : PoolState → PoolOp → PoolState → Prop
  | add {s : PoolState} {pool links} (order conn inbound) : conn ∈ E.conns →
      s.pool.add s.links order conn inbound = .ok (pool, links) →
      PoolStep E s (.add order conn inbound) ⟨pool, links⟩
  | remove {s : PoolState} {pool links} (id) : s.pool.remove s.links id = .ok (pool, links) →
      PoolStep E s (.remove id) ⟨pool, links⟩
  | checkLimits {s : PoolState} {pool links} (order) :
      s.pool.checkLimits s.links order = .ok (pool, links) →
      PoolStep E s (.checkLimits order) ⟨pool, links⟩
  | byRaddr {s : PoolState} (rng raddr answer) : s.pool.byRaddr rng raddr = .ok answer →
      PoolStep E s (.byRaddr rng raddr answer (answer.any s.links.isClosed)) s
  | byPeerId {s : PoolState} (rng peerId answer) : s.pool.byPeerId rng peerId = .ok answer →
      PoolStep E s (.byPeerId rng peerId answer (answer.any s.links.isClosed)) s
  | status {s : PoolState} (id status) :
      PoolStep E s (.status id status) { s with links := Function.update s.links id status }

/-- The runs of a pool of the given size, empty at first. -/
def poolLts (E : Established) (maxPoolSize : ℕ) : Lts PoolState PoolOp where
  init s := s.pool = .new maxPoolSize
  step := PoolStep E

end Semantics

namespace RawConnPool

/-- `conn` is in the pool. -/
def Pooled (pool : RawConnPool) (conn : P2pConn) : Prop := ∃ id, pool.conns.get id = some conn

variable [Libp2p]

/-- The three maps agree. -/
structure Consistent (pool : RawConnPool) : Prop where
  /-- Connections are stored under their own ids. -/
  conn_id : ∀ {id conn}, pool.conns.get id = some conn → conn.id = id
  /-- `peers` lists the connections by peer id. -/
  index : IsIndex P2pConn.peerId pool.conns pool.peers
  /-- Every address leads to the peer of a connection dialled there. -/
  backed : ∀ {raddr peerId}, pool.raddrs.get raddr = some peerId →
    ∃ conn, pool.Pooled conn ∧ conn.peerAddr = raddr ∧ conn.peerId = peerId

/-- The consistency guarantee, clause by clause. -/
structure Guarantee (pool : RawConnPool) : Prop where
  /-- Every key of `conns` maps to a connection with that id. -/
  conn_id : ∀ id conn, pool.conns.get id = some conn → conn.id = id
  /-- Every pooled id occurs exactly once in the list of its own peer. -/
  listed : ∀ id conn, pool.conns.get id = some conn →
    ∃ ids, pool.peers.get conn.peerId = some ids ∧ ids.count id = 1
  /-- It occurs in no other list. -/
  listed_own : ∀ id conn peerId ids, pool.conns.get id = some conn →
    pool.peers.get peerId = some ids → id ∈ ids → peerId = conn.peerId
  /-- Every listed id is pooled. -/
  pooled : ∀ peerId ids id, pool.peers.get peerId = some ids → id ∈ ids →
    ∃ conn, pool.conns.get id = some conn
  /-- No list is empty. -/
  ne_nil : ∀ peerId ids, pool.peers.get peerId = some ids → ids ≠ []
  /-- Every entry of `raddrs` is backed by a pooled connection. -/
  backed : ∀ raddr peerId, pool.raddrs.get raddr = some peerId →
    ∃ id conn, pool.conns.get id = some conn ∧ conn.peerAddr = raddr ∧ conn.peerId = peerId

theorem Consistent.guarantee {pool : RawConnPool} (h : pool.Consistent) : pool.Guarantee where
  conn_id _ _ := h.conn_id
  listed id conn hc := by
    obtain ⟨ids, hids, hmem⟩ := h.index.listed hc
    exact ⟨ids, hids, List.count_eq_one_of_mem (h.index.nodup hids) hmem⟩
  listed_own _ _ _ _ hc hids hmem := h.index.eq_key hids hmem hc
  pooled _ _ _ hids hmem := by
    obtain ⟨conn, hc, -⟩ := h.index.sound hids hmem
    exact ⟨conn, hc⟩
  ne_nil _ _ := h.index.ne_nil
  backed raddr peerId hr := by
    obtain ⟨conn, ⟨id, hc⟩, ha, hp⟩ := h.backed hr
    exact ⟨id, conn, hc, ha, hp⟩

theorem consistent_new (n : ℕ) : (new n).Consistent :=
  ⟨by simp [new], .empty, by simp [new]⟩

/-! ### The updates -/

omit [Libp2p] in
theorem withoutId_eq (ids : List String) (id : String) : withoutId ids id = ids.erase id := by
  rw [List.erase_eq_eraseIdx, withoutId, List.idxOf?]
  cases ids.findIdx? (· == id) <;> rfl

theorem remove_eq {pool : RawConnPool} (h : pool.Consistent) {links : Links} {id : String}
    {conn : P2pConn} (hc : pool.conns.get id = some conn) :
    pool.remove links id = .ok ({ pool with
      conns := pool.conns.remove id
      raddrs := pool.raddrs.remove conn.peerAddr
      peers := pool.peers.delist conn.peerId id },
      if links.isClosed conn then links else links.close conn) := by
  obtain ⟨ids, hids, -⟩ := h.index.listed hc
  have hid : ¬ id ≠ conn.id := by simp [h.conn_id hc]
  simp only [remove, hc, hid, ↓reduceIte, hids, withoutId_eq, List.isEmpty_iff,
    HashMap.delist, Option.getD_some]

/-- **What `remove` does**: it succeeds, keeps the pool consistent, and takes out exactly the
connection with the given id. -/
theorem remove_spec {pool : RawConnPool} (h : pool.Consistent) (links : Links) (id : String) :
    ∃ pool' links', pool.remove links id = .ok (pool', links') ∧ pool'.Consistent ∧
      pool'.maxPoolSize = pool.maxPoolSize ∧
      ∀ id', pool'.conns.get id' = if id' = id then none else pool.conns.get id' := by
  cases hc : pool.conns.get id with
  | none =>
    refine ⟨pool, links, by simp only [remove, hc], h, rfl, ?_⟩
    intro id'
    split_ifs with hid
    · rw [hid, hc]
    · rfl
  | some conn =>
    refine ⟨_, _, remove_eq h hc, ⟨fun hc' => ?_, h.index.remove hc, fun hr => ?_⟩, rfl,
      fun id' => HashMap.get_remove ..⟩
    · exact h.conn_id (HashMap.get_of_get_remove hc').2
    · -- an address that is left was not dialled by the connection that is gone
      obtain ⟨hne, hr⟩ := HashMap.get_of_get_remove hr
      obtain ⟨conn', ⟨id', hc'⟩, ha, hp⟩ := h.backed hr
      have hid : id' ≠ id := by
        rintro rfl
        rw [hc] at hc'
        cases hc'
        exact hne ha.symm
      exact ⟨conn', ⟨id', (HashMap.get_remove_ne hid).trans hc'⟩, ha, hp⟩

theorem removeAll_spec (ids : List String) {pool : RawConnPool} (h : pool.Consistent)
    (links : Links) :
    ∃ pool' links', removeAll ids (pool, links) = .ok (pool', links') ∧ pool'.Consistent ∧
      pool'.maxPoolSize = pool.maxPoolSize ∧
      ∀ id, pool'.conns.get id = if id ∈ ids then none else pool.conns.get id := by
  induction ids generalizing pool links with
  | nil => exact ⟨pool, links, rfl, h, rfl, by simp⟩
  | cons id ids ih =>
    obtain ⟨pool₁, links₁, he, h₁, hm, hg⟩ := remove_spec h links id
    obtain ⟨pool₂, links₂, he', h₂, hm', hg'⟩ := ih h₁ links₁
    refine ⟨pool₂, links₂, ?_, h₂, hm'.trans hm, fun id' => ?_⟩
    · rw [removeAll, he]
      exact he'
    · rw [hg', hg]
      by_cases h1 : id' ∈ ids <;> by_cases h2 : id' = id <;> simp [h1, h2]

/-- **What `check_limits` does**: it succeeds, keeps the pool consistent and adds nothing. -/
theorem checkLimits_spec {pool : RawConnPool} (h : pool.Consistent) (links : Links)
    (order : Shuffle (String × P2pConn)) :
    ∃ pool' links', pool.checkLimits links order = .ok (pool', links') ∧ pool'.Consistent ∧
      ∀ id conn, pool'.conns.get id = some conn → pool.conns.get id = some conn := by
  unfold checkLimits
  split_ifs
  · obtain ⟨pool', links', he, h', -, hg⟩ :=
      removeAll_spec (pool.purgeable links order) h links
    refine ⟨pool', links', he, h', ?_⟩
    intro id conn hc
    rw [hg] at hc
    split_ifs at hc
    exact hc
  · exact ⟨pool, links, rfl, h, fun _ _ hc => hc⟩

theorem store_conns (pool : RawConnPool) (conn : P2pConn) (inbound : Bool) :
    (pool.store conn inbound).conns = pool.conns.insert conn.id conn := by
  unfold store
  split <;> rfl

omit [Libp2p] in
theorem Pooled.insert {pool pool' : RawConnPool} {conn d : P2pConn}
    (hs : pool'.conns = pool.conns.insert conn.id conn)
    (hid : ∀ c, pool.conns.get conn.id = some c → c = conn) (hd : pool.Pooled d) :
    pool'.Pooled d := by
  obtain ⟨id, hc⟩ := hd
  refine ⟨id, ?_⟩
  rw [hs, HashMap.get_insert]
  split_ifs with hk
  · rw [hid d (hk ▸ hc)]
  · exact hc

/-- Storing a connection keeps the pool consistent, if a pooled connection with the same id is the
same connection. -/
theorem Consistent.store {pool : RawConnPool} (h : pool.Consistent) {conn : P2pConn}
    (inbound : Bool) (hid : ∀ c, pool.conns.get conn.id = some c → c = conn) :
    (pool.store conn inbound).Consistent where
  conn_id {id c} hc := by
    rw [store_conns, HashMap.get_insert] at hc
    split_ifs at hc with hk
    · cases hc; exact hk.symm
    · exact h.conn_id hc
  index := by
    unfold RawConnPool.store
    split
    · rename_i c hc
      exact h.index.replace hc (by rw [hid c hc])
    · rename_i hc
      have hnew := h.index.insert conn hc
      unfold HashMap.enlist at hnew
      cases hids : pool.peers.get conn.peerId <;> rw [hids] at hnew <;> exact hnew
  backed {raddr peerId} hr := by
    -- an address that was indexed before is backed by a connection that is still pooled
    have old : pool.raddrs.get raddr = some peerId →
        ∃ c, (pool.store conn inbound).Pooled c ∧ c.peerAddr = raddr ∧ c.peerId = peerId := by
      intro hr
      obtain ⟨c, hc, ha, hp⟩ := h.backed hr
      exact ⟨c, hc.insert (store_conns pool conn inbound) hid, ha, hp⟩
    have hnew : (pool.store conn inbound).Pooled conn :=
      ⟨conn.id, by rw [store_conns, HashMap.get_insert_self]⟩
    unfold RawConnPool.store at hr
    split at hr
    · exact old hr
    · cases inbound with
      | true => exact old hr
      | false =>
        simp only [Bool.false_eq_true, ↓reduceIte, HashMap.get_insert] at hr
        split_ifs at hr with ha
        · cases hr
          exact ⟨conn, hnew, ha.symm, rfl⟩
        · exact old hr

/-- **What `add` does**: it succeeds, keeps the pool consistent, and pools nothing but the given
connection and connections that were pooled before. -/
theorem add_spec {pool : RawConnPool} (h : pool.Consistent) (links : Links)
    (order : Shuffle (String × P2pConn)) {conn : P2pConn} (inbound : Bool)
    (hid : ∀ c, pool.conns.get conn.id = some c → c = conn) :
    ∃ pool' links', pool.add links order conn inbound = .ok (pool', links') ∧
      pool'.Consistent ∧ ∀ c, pool'.Pooled c → c = conn ∨ pool.Pooled c := by
  obtain ⟨pool₁, links₁, he, h₁, hsub⟩ := checkLimits_spec h links order
  refine ⟨pool₁.store conn inbound, links₁, by rw [add, he]; rfl,
    h₁.store inbound fun c hc => hid c (hsub _ _ hc), ?_⟩
  rintro c ⟨id, hc⟩
  rw [store_conns, HashMap.get_insert] at hc
  split_ifs at hc
  · cases hc; exact .inl rfl
  · exact .inr ⟨id, hsub _ _ hc⟩

/-! ### The lookups -/

/-- Picking from the list of a peer answers one of its pooled connections. -/
theorem pick_spec {pool : RawConnPool} (h : pool.Consistent) (rng : Chooser String)
    {peerId : PeerId} {ids : List String} (hids : pool.peers.get peerId = some ids) :
    ∃ conn, pool.pick rng ids = .ok (some conn) ∧ pool.Pooled conn ∧ conn.peerId = peerId := by
  cases hch : rng.choose ids with
  | none => exact absurd (rng.eq_nil _ hch) (h.index.ne_nil hids)
  | some id =>
    obtain ⟨conn, hc, hp⟩ := h.index.sound hids (rng.mem _ _ hch)
    exact ⟨conn, by simp only [pick, hch, hc], ⟨id, hc⟩, hp⟩

theorem exists_pick {pool : RawConnPool} (h : pool.Consistent) {peerId : PeerId}
    {ids : List String} (hids : pool.peers.get peerId = some ids) {conn : P2pConn}
    (hc : pool.Pooled conn) (hp : conn.peerId = peerId) :
    ∃ rng, pool.pick rng ids = .ok (some conn) := by
  obtain ⟨id, hc⟩ := hc
  obtain ⟨ids', hids', hmem⟩ := h.index.listed hc
  rw [hp, hids] at hids'
  cases hids'
  exact ⟨.favour id, by simp [pick, hmem, hc]⟩

theorem exists_listed_iff {pool : RawConnPool} (h : pool.Consistent) {peerId : PeerId} :
    (∃ ids, pool.peers.get peerId = some ids) ↔
      ∃ conn, pool.Pooled conn ∧ conn.peerId = peerId := by
  rw [h.index.exists_iff]
  constructor
  · rintro ⟨id, conn, hc, hp⟩; exact ⟨conn, ⟨id, hc⟩, hp⟩
  · rintro ⟨conn, ⟨id, hc⟩, hp⟩; exact ⟨id, conn, hc, hp⟩

/-- **What `by_peer_id` does**: it answers a pooled connection of the peer if there is one. -/
theorem byPeerId_spec {pool : RawConnPool} (h : pool.Consistent) (rng : Chooser String)
    (peerId : PeerId) :
    (∃ conn, pool.byPeerId rng peerId = .ok (some conn) ∧ pool.Pooled conn ∧
      conn.peerId = peerId) ∨
    (pool.byPeerId rng peerId = .ok none ∧ ∀ conn, pool.Pooled conn → conn.peerId ≠ peerId) := by
  cases hids : pool.peers.get peerId with
  | some ids =>
    obtain ⟨conn, he, hc, hp⟩ := pick_spec h rng hids
    exact .inl ⟨conn, by rw [byPeerId, hids]; exact he, hc, hp⟩
  | none =>
    refine .inr ⟨by rw [byPeerId, hids], ?_⟩
    intro conn hc hp
    obtain ⟨ids, hids'⟩ := (exists_listed_iff h).2 ⟨conn, hc, hp⟩
    simp [hids] at hids'

/-- **What `by_raddr` does**: it answers a pooled connection of the peer the address leads to. -/
theorem byRaddr_spec {pool : RawConnPool} (h : pool.Consistent) (rng : Chooser String)
    (raddr : Multiaddr) :
    (∃ peerId conn, pool.raddrs.get raddr = some peerId ∧
      pool.byRaddr rng raddr = .ok (some conn) ∧ pool.Pooled conn ∧ conn.peerId = peerId) ∨
    (pool.raddrs.get raddr = none ∧ pool.byRaddr rng raddr = .ok none) := by
  cases hr : pool.raddrs.get raddr with
  | none => exact .inr ⟨rfl, by rw [byRaddr, hr]⟩
  | some peerId =>
    obtain ⟨conn, hc, -, hp⟩ := h.backed hr
    obtain ⟨ids, hids⟩ := (exists_listed_iff h).2 ⟨conn, hc, hp⟩
    obtain ⟨conn', he, hc', hp'⟩ := pick_spec h rng hids
    exact .inl ⟨peerId, conn', rfl, by simp only [byRaddr, hr, hids]; exact he, hc', hp'⟩

end RawConnPool

/-! ### Reachable pools -/

section Reachable

variable [Libp2p] {E : Established} {maxPoolSize : ℕ}

/-- A pool that holds only connections of `E` and is consistent. -/
def PoolState.Good (E : Established) (s : PoolState) : Prop :=
  s.pool.Consistent ∧ ∀ conn, s.pool.Pooled conn → conn ∈ E.conns

/-- In a good state a pooled connection with the id of a connection of `E` is that connection. -/
theorem PoolState.Good.eq_of_id {s : PoolState} (h : s.Good E) {conn c : P2pConn}
    (hE : conn ∈ E.conns) (hc : s.pool.conns.get conn.id = some c) : c = conn := by
  have hid : c.id = conn.id := h.1.conn_id hc
  obtain ⟨hk, ha⟩ := E.unique c (h.2 c ⟨_, hc⟩) conn hE hid
  cases c; cases conn
  simp_all

theorem PoolStep.good {s s' : PoolState} {op : PoolOp} (h : s.Good E) (hst : PoolStep E s op s') :
    s'.Good E := by
  cases hst with
  | add order conn inbound hE he =>
    obtain ⟨pool', links', he', hc', hsub⟩ :=
      RawConnPool.add_spec h.1 s.links order inbound fun c hc => h.eq_of_id hE hc
    rw [he] at he'
    cases he'
    refine ⟨hc', ?_⟩
    intro c hc
    rcases hsub c hc with rfl | hold
    · exact hE
    · exact h.2 c hold
  | remove id he =>
    obtain ⟨pool', links', he', hc', -, hg⟩ := RawConnPool.remove_spec h.1 s.links id
    rw [he] at he'
    cases he'
    refine ⟨hc', ?_⟩
    intro c hc
    obtain ⟨id', hc⟩ := hc
    rw [hg] at hc
    split_ifs at hc
    exact h.2 c ⟨id', hc⟩
  | checkLimits order he =>
    obtain ⟨pool', links', he', hc', hsub⟩ := RawConnPool.checkLimits_spec h.1 s.links order
    rw [he] at he'
    cases he'
    refine ⟨hc', ?_⟩
    intro c hc
    obtain ⟨id, hc⟩ := hc
    exact h.2 c ⟨id, hsub id c hc⟩
  | byRaddr => exact h
  | byPeerId => exact h
  | status => exact h

theorem PoolState.good_init {s : PoolState} (h : s.pool = .new maxPoolSize) : s.Good E := by
  refine ⟨h ▸ RawConnPool.consistent_new _, ?_⟩
  rintro conn ⟨id, hc⟩
  simp [h, RawConnPool.new] at hc

theorem poolLts_good {s : PoolState} (h : (poolLts E maxPoolSize).Reachable s) : s.Good E :=
  h.invariant (fun _ hs => PoolState.good_init hs) fun _ _ _ hg hst => hst.good hg

/-- **The consistency guarantee.**  In every reachable pool the three maps agree, no operation
panics, and `by_peer_id` answers a connection exactly when one to the peer is pooled. -/
theorem pool_consistency_guarantee {s : PoolState} (h : (poolLts E maxPoolSize).Reachable s) :
    s.pool.Guarantee ∧
    (∀ id, ∃ r, s.pool.remove s.links id = .ok r) ∧
    (∀ order, ∃ r, s.pool.checkLimits s.links order = .ok r) ∧
    (∀ order, ∀ conn ∈ E.conns, ∀ inbound, ∃ r, s.pool.add s.links order conn inbound = .ok r) ∧
    (∀ rng raddr, ∃ r, s.pool.byRaddr rng raddr = .ok r) ∧
    (∀ rng peerId, ∃ r, s.pool.byPeerId rng peerId = .ok r) ∧
    ∀ rng peerId, (∃ conn, s.pool.byPeerId rng peerId = .ok (some conn)) ↔
      ∃ conn, s.pool.Pooled conn ∧ conn.peerId = peerId := by
  have hg := poolLts_good h
  refine ⟨hg.1.guarantee, fun id => ?_, fun order => ?_, fun order conn hE inbound => ?_,
    fun rng raddr => ?_, fun rng peerId => ?_, fun rng peerId => ?_⟩
  · obtain ⟨pool', links', he, -⟩ := RawConnPool.remove_spec hg.1 s.links id
    exact ⟨_, he⟩
  · obtain ⟨pool', links', he, -⟩ := RawConnPool.checkLimits_spec hg.1 s.links order
    exact ⟨_, he⟩
  · obtain ⟨pool', links', he, -⟩ :=
      RawConnPool.add_spec hg.1 s.links order inbound fun c hc => hg.eq_of_id hE hc
    exact ⟨_, he⟩
  · rcases RawConnPool.byRaddr_spec hg.1 rng raddr with ⟨_, conn, -, he, -⟩ | ⟨-, he⟩
    · exact ⟨_, he⟩
    · exact ⟨_, he⟩
  · rcases RawConnPool.byPeerId_spec hg.1 rng peerId with ⟨conn, he, -⟩ | ⟨he, -⟩
    · exact ⟨_, he⟩
    · exact ⟨_, he⟩
  · rcases RawConnPool.byPeerId_spec hg.1 rng peerId with ⟨conn, he, hc, hp⟩ | ⟨he, hno⟩
    · exact ⟨fun _ => ⟨conn, hc, hp⟩, fun _ => ⟨conn, he⟩⟩
    · constructor
      · rintro ⟨conn, hc⟩
        simp [he] at hc
      · rintro ⟨conn, hc, hp⟩
        exact absurd hp (hno conn hc)

end Reachable

section Sample

attribute [local instance] Libp2p.ed25519

/-- A connection to the node with key `keyA`. -/
def connA : P2pConn := ⟨"a", keyA, [.ip4 0x7f000001, .tcp 4001, .tls]⟩

/-- A switch whose only connection is `connA`. -/
def onlyA : Established := ⟨{connA}, by rintro c rfl d rfl _; exact ⟨rfl, rfl⟩⟩

/-- Every connection is open and idle. -/
def idleLinks : Links := fun _ => ⟨false, 0⟩

theorem reachable_onlyA :
    (poolLts onlyA 20).Reachable ⟨(RawConnPool.new 20).store connA false, idleLinks⟩ :=
  (Lts.Reachable.start (s := ⟨.new 20, idleLinks⟩) rfl).snoc
    (PoolStep.add .id connA false rfl rfl)

/-- A connection to the node with key `keyB`. -/
def busyB : P2pConn := ⟨"b", keyB, [.ip4 0x7f000001, .tcp 4002, .tls]⟩

/-- A second connection to the node with key `keyA`. -/
def connAgain : P2pConn := ⟨"a'", keyA, [.ip4 0x7f000001, .tcp 4001, .tls]⟩

/-- A switch with these connections. -/
def threeConns : Established :=
  ⟨{connA, busyB, connAgain}, by rintro _ (rfl | rfl | rfl) _ (rfl | rfl | rfl) <;> decide⟩

/-- A pool of size 1 gets all of them: the third one finds it too large, and `connA`, which is idle,
is purged. -/
theorem reachable_threeConns : ∃ s, (poolLts threeConns 1).Reachable s ∧
    s.pool.conns.get "a" = none ∧ s.pool.Pooled busyB ∧ s.pool.Pooled connAgain := by
  have start : (poolLts threeConns 1).Reachable ⟨.new 1, idleLinks⟩ := .start rfl
  have one := start.snoc (PoolStep.add .id connA false (.inl rfl) rfl)
  have two := one.snoc (PoolStep.add .id busyB true (.inr (.inl rfl)) rfl)
  have busy := two.snoc (PoolStep.status "b" ⟨false, 1⟩)
  exact ⟨_, busy.snoc (PoolStep.add .id connAgain false (.inr (.inr rfl)) rfl), rfl,
    ⟨"b", rfl⟩, ⟨"a'", rfl⟩⟩

theorem pool_consistency_guarantee_threeConns :
    ∃ s, (poolLts threeConns 1).Reachable s ∧ s.pool.conns.get "a" = none ∧ s.pool.Guarantee ∧
      (∃ conn, s.pool.byPeerId .head keyA.toPeerId = .ok (some conn)) ∧
      ∃ conn, s.pool.byPeerId .head keyB.toPeerId = .ok (some conn) := by
  obtain ⟨s, hs, hpurged, hB, hAgain⟩ := reachable_threeConns
  obtain ⟨hguarantee, -, -, -, -, -, hpeer⟩ := pool_consistency_guarantee hs
  exact ⟨s, hs, hpurged, hguarantee, (hpeer .head keyA.toPeerId).2 ⟨connAgain, hAgain, rfl⟩,
    (hpeer .head keyB.toPeerId).2 ⟨busyB, hB, rfl⟩⟩

end Sample

end XStack
