import XStack.Connector.Consistency

/-!
# Dead connections in the pool

`check_limits` counts a closed connection among those to purge, but it runs only when the pool is
over its limit, and the lookups do not ask `is_closed`.  So a connection that dies while it is
pooled can be handed out, and its peer is not dialled again.

* `handed_out_dead` : a run in which `connect_to` is answered by a connection that has died.
* `pool_answers_open` : the exact condition.  A run hands out no dead connection if at each lookup
  all the pooled connections of the peer it resolves to are open, and a lookup at which one of them
  is dead can hand that one out.
-/

namespace XStack

/-- A lookup does not answer a connection that is closed at that moment. -/
def PoolOp.AnswersOpen : PoolOp → Prop
  | .byRaddr _ _ _ closed => closed = false
  | .byPeerId _ _ _ closed => closed = false
  | _ => True

/-- The peer whose pooled connections a lookup chooses from. -/
def PoolOp.target (s : PoolState) : PoolOp → Option PeerId
  | .byRaddr _ raddr _ _ => s.pool.raddrs.get raddr
  | .byPeerId _ peerId _ _ => some peerId
  | _ => none

section

variable [Libp2p]

/-- All the pooled connections of a peer are open. -/
def PoolState.PeerAlive (s : PoolState) (peerId : PeerId) : Prop :=
  ∀ conn, s.pool.Pooled conn → conn.peerId = peerId → s.links.isClosed conn = false

/-- The peer a lookup resolves to has no dead connection in the pool. -/
def TargetAlive (_ : List PoolOp) (s : PoolState) (op : PoolOp) : Prop :=
  ∀ peerId, op.target s = some peerId → s.PeerAlive peerId

variable {E : Established} {maxPoolSize : ℕ}

theorem PoolStep.answersOpen {h : List PoolOp} {s s' : PoolState} {op : PoolOp} (hg : s.Good E)
    (ha : TargetAlive h s op) (hst : PoolStep E s op s') : op.AnswersOpen := by
  cases hst with
  | add | remove | checkLimits | status => trivial
  | byRaddr rng raddr answer he =>
    rcases RawConnPool.byRaddr_spec hg.1 rng raddr with ⟨peerId, conn, hr, he', hc, hp⟩ | ⟨-, he'⟩
    · rw [he] at he'
      cases he'
      exact ha peerId hr conn hc hp
    · rw [he] at he'
      cases he'
      rfl
  | byPeerId rng peerId answer he =>
    rcases RawConnPool.byPeerId_spec hg.1 rng peerId with ⟨conn, he', hc, hp⟩ | ⟨he', -⟩
    · rw [he] at he'
      cases he'
      exact ha peerId rfl conn hc hp
    · rw [he] at he'
      cases he'
      rfl

theorem PoolStep.exists_byPeerId {s : PoolState} (hg : s.Good E) {conn : P2pConn}
    (hc : s.pool.Pooled conn) :
    ∃ rng, PoolStep E s (.byPeerId rng conn.peerId (some conn) (s.links.isClosed conn)) s := by
  obtain ⟨ids, hids⟩ := (RawConnPool.exists_listed_iff hg.1).2 ⟨conn, hc, rfl⟩
  obtain ⟨rng, he⟩ := RawConnPool.exists_pick hg.1 hids hc rfl
  exact ⟨rng, PoolStep.byPeerId rng _ (some conn) (by simp only [RawConnPool.byPeerId, hids, he])⟩

theorem PoolStep.exists_byRaddr {s : PoolState} (hg : s.Good E) {conn : P2pConn}
    {raddr : Multiaddr} (hr : s.pool.raddrs.get raddr = some conn.peerId)
    (hc : s.pool.Pooled conn) :
    ∃ rng, PoolStep E s (.byRaddr rng raddr (some conn) (s.links.isClosed conn)) s := by
  obtain ⟨ids, hids⟩ := (RawConnPool.exists_listed_iff hg.1).2 ⟨conn, hc, rfl⟩
  obtain ⟨rng, he⟩ := RawConnPool.exists_pick hg.1 hids hc rfl
  exact ⟨rng,
    PoolStep.byRaddr rng raddr (some conn) (by simp only [RawConnPool.byRaddr, hr, hids, he])⟩

/-- **When the pool hands out dead connections.**  If at every lookup of a run the peer it resolves
to has only open connections in the pool, every answer is open at that moment; and whenever a
lookup resolves to a peer with a dead connection, it can answer that connection. -/
theorem pool_answers_open :
    (∀ h s, (poolLts E maxPoolSize).RunWhere TargetAlive h s → ∀ op ∈ h, op.AnswersOpen) ∧
    ∀ s, (poolLts E maxPoolSize).Reachable s → ∀ conn, s.pool.Pooled conn →
      s.links.isClosed conn = true →
      (∃ rng, (poolLts E maxPoolSize).step s (.byPeerId rng conn.peerId (some conn) true) s) ∧
      ∀ raddr, s.pool.raddrs.get raddr = some conn.peerId →
        ∃ rng, (poolLts E maxPoolSize).step s (.byRaddr rng raddr (some conn) true) s := by
  constructor
  · intro h s hr
    refine hr.invariant (I := fun h _ => ∀ op ∈ h, op.AnswersOpen) (by simp) ?_
    intro h s op s' hr ih ha hst op' hop
    rcases List.mem_append.1 hop with hold | hnew
    · exact ih op' hold
    · rw [List.mem_singleton.1 hnew]
      exact PoolStep.answersOpen (poolLts_good ⟨h, hr.run⟩) ha hst
  · intro s hs conn hc hclosed
    have hg := poolLts_good hs
    refine ⟨?_, fun raddr hr => ?_⟩
    · obtain ⟨rng, hst⟩ := PoolStep.exists_byPeerId hg hc
      exact ⟨rng, hclosed ▸ hst⟩
    · obtain ⟨rng, hst⟩ := PoolStep.exists_byRaddr hg hr hc
      exact ⟨rng, hclosed ▸ hst⟩

end

section Sample

attribute [local instance] Libp2p.ed25519

/-- A dialled connection dies, and the next `connect_to` is answered by it: the pool is below its
limit, so nothing has removed it. -/
theorem handed_out_dead :
    ¬ ∀ h s, (poolLts onlyA 20).Run h s → ∀ op ∈ h, op.AnswersOpen := by
  intro hall
  have start : (poolLts onlyA 20).Run [] ⟨.new 20, idleLinks⟩ := .start rfl
  have dialled : (poolLts onlyA 20).Run [.add .id connA false]
      ⟨(RawConnPool.new 20).store connA false, idleLinks⟩ :=
    start.snoc (PoolStep.add .id connA false rfl rfl)
  have died := dialled.snoc (PoolStep.status "a" ⟨true, 0⟩)
  have answered := died.snoc (PoolStep.byPeerId .head keyA.toPeerId (some connA) rfl)
  have hopen := hall _ _ answered _ List.mem_concat_self
  exact Bool.noConfusion hopen

end Sample

end XStack
