import XStack.Connector.Reuse

/-!
# The limit of the pool

The pool is meant to hold at most `max_pool_size` connections, except that connections in use are
not closed to make room.  `add` enforces the limit before it inserts the connection, and only if the
pool is over it: a pool that is exactly full grows by one, however many of its connections are
closed or idle (`add_over_limit`).

Nothing here needs the ids of the connections to be unique.  Then the maps of the pool may disagree,
but the connections are still stored under their own ids (`RawConnPool.Keyed`), and this is all that
`remove` and `check_limits` rely on.

## Main definitions

* `RawConnPool.Keyed` : the invariant.
* `anyPoolLts` : the pool with its operations, on any connections.
* `PoolState.WithinLimit` : the limit is observed, or all other connections are in use.
* `PoolState.HasRoom` : the state before an `add`.

## Main results

* `RawConnPool.Keyed.removeAll` : what is removed and what is closed.
* `pool_limit_iff` : the runs in which the limit is observed after every `add`.
-/

namespace XStack

namespace RawConnPool

variable {pool pool' : RawConnPool} {links links' : Links}

/-- The connections that are purged: the closed and the idle ones. -/
theorem mem_purgeable {order : Shuffle (String × P2pConn)} {id : String} :
    id ∈ pool.purgeable links order ↔ ∃ conn, pool.conns.get id = some conn ∧
      (links.isClosed conn = true ∨ links.actives conn = 0) := by
  simp only [purgeable, List.mem_map, List.mem_filter, order.mem_run, Prod.exists,
    HashMap.mem_iter, Bool.or_eq_true, beq_iff_eq]
  constructor
  · rintro ⟨id', conn, ⟨hc, hidle⟩, rfl⟩
    exact ⟨conn, hc, hidle⟩
  · rintro ⟨conn, hc, hidle⟩
    exact ⟨id, conn, ⟨hc, hidle⟩, rfl⟩

/-- Connections are stored under their own ids. -/
def Keyed (pool : RawConnPool) : Prop := ∀ id conn, pool.conns.get id = some conn → conn.id = id

variable [Libp2p]

theorem Consistent.keyed (h : pool.Consistent) : pool.Keyed := fun _ _ => h.conn_id

/-- **What `remove` does**: it succeeds, and takes out and closes the connection with the given id,
if there is one. -/
theorem Keyed.remove (h : pool.Keyed) (links : Links) (id : String) :
    ∃ pool' links', pool.remove links id = .ok (pool', links') ∧ pool'.Keyed ∧
      pool'.maxPoolSize = pool.maxPoolSize ∧
      (∀ id', pool'.conns.get id' = if id' = id then none else pool.conns.get id') ∧
      ∀ id', links' id' = if id' = id ∧ (pool.conns.get id').isSome
        then { links id with closed := true } else links id' := by
  cases hc : pool.conns.get id with
  | none =>
    refine ⟨pool, links, by simp only [RawConnPool.remove, hc], h, rfl, fun id' => ?_,
      fun id' => (if_neg ?_).symm⟩
    · split_ifs with hid
      · rw [hid, hc]
      · rfl
    · rintro ⟨rfl, hsome⟩
      rw [hc] at hsome
      cases hsome
  | some conn =>
    have hid : conn.id = id := h id conn hc
    simp only [RawConnPool.remove, hc, hid, ne_eq, not_true_eq_false, ↓reduceIte]
    refine ⟨_, _, rfl, fun id' conn' hc' => h id' conn' (HashMap.get_of_get_remove hc').2, rfl,
      fun id' => HashMap.get_remove .., fun id' => ?_⟩
    -- a connection that is closed already is not closed again
    cases hclosed : links.isClosed conn with
    | true =>
      by_cases hk : id' = id
      · subst hk
        rw [Links.isClosed, hid] at hclosed
        simp [hc, ← hclosed]
      · simp [hk]
    | false =>
      by_cases hk : id' = id
      · subst hk
        simp [hc, Links.close, hid]
      · simp [hk, Links.close, hid]

/-- **Removing connections closes the pooled ones among them, and no other.** -/
theorem Keyed.removeAll (ids : List String) (h : pool.Keyed) (links : Links) :
    ∃ pool' links', removeAll ids (pool, links) = .ok (pool', links') ∧ pool'.Keyed ∧
      pool'.maxPoolSize = pool.maxPoolSize ∧
      (∀ id, pool'.conns.get id = if id ∈ ids then none else pool.conns.get id) ∧
      ∀ id, links' id = if id ∈ ids ∧ (pool.conns.get id).isSome
        then { links id with closed := true } else links id := by
  induction ids generalizing pool links with
  | nil => exact ⟨pool, links, rfl, h, rfl, by simp, by simp⟩
  | cons id₀ ids ih =>
    obtain ⟨pool₁, links₁, hremove, h₁, hmax₁, hconns₁, hlinks₁⟩ := h.remove links id₀
    obtain ⟨pool', links', hall, h', hmax, hconns, hlinks⟩ := ih h₁ links₁
    refine ⟨pool', links', ?_, h', hmax.trans hmax₁, fun id => ?_, fun id => ?_⟩
    · rw [RawConnPool.removeAll, hremove]
      exact hall
    · rw [hconns, hconns₁]
      by_cases hid : id = id₀ <;> simp [hid]
    · rw [hlinks, hlinks₁, hconns₁]
      by_cases hid : id = id₀
      · subst hid
        cases (pool.conns.get id).isSome <;> simp
      · simp [hid]

/-- What `check_limits` closes: the pooled connections that are idle, if the pool is over its
limit. -/
theorem checkLimits_isClosed (h : pool.Keyed) {order : Shuffle (String × P2pConn)}
    (he : pool.checkLimits links order = .ok (pool', links')) {conn : P2pConn}
    (hid : ∀ c, pool.conns.get conn.id = some c → c = conn)
    (hopen : links.isClosed conn = false) :
    links'.isClosed conn = true ↔
      pool.maxPoolSize < pool.len ∧ pool.Pooled conn ∧ links.actives conn = 0 := by
  have hpurged : conn.id ∈ pool.purged links order ∧ (pool.conns.get conn.id).isSome ↔
      pool.maxPoolSize < pool.len ∧ pool.Pooled conn ∧ links.actives conn = 0 := by
    unfold purged
    constructor
    · rintro ⟨hmem, hsome⟩
      split_ifs at hmem with hover
      · obtain ⟨c, hc, hidle⟩ := mem_purgeable.1 hmem
        have hc' := hid c hc
        subst hc'
        exact ⟨hover, ⟨c.id, hc⟩, hidle.resolve_left (by simp [hopen])⟩
      · cases hmem
    · rintro ⟨hover, ⟨id, hc⟩, hidle⟩
      obtain rfl := h id conn hc
      rw [if_pos hover, hc]
      exact ⟨mem_purgeable.2 ⟨conn, hc, .inr hidle⟩, rfl⟩
  obtain ⟨pool₁, links₁, hall, -, -, -, hlinks⟩ := h.removeAll (pool.purged links order) links
  rw [checkLimits_eq, hall] at he
  cases he
  rw [Links.isClosed, hlinks, ← hpurged]
  split_ifs with hboth
  · exact iff_of_true rfl hboth
  · exact iff_of_false (ne_true_of_eq_false hopen) hboth

theorem Keyed.store (h : pool.Keyed) (conn : P2pConn) (inbound : Bool) :
    (pool.store conn inbound).Keyed := by
  intro id c hc
  rw [store_conns, HashMap.get_insert] at hc
  split_ifs at hc with hid
  · cases hc
    exact hid.symm
  · exact h id c hc

theorem pooled_store_iff (h : pool.Keyed) {conn c : P2pConn} (inbound : Bool)
    (hne : c.id ≠ conn.id) : (pool.store conn inbound).Pooled c ↔ pool.Pooled c := by
  refine exists_congr fun id => ?_
  rw [store_conns, HashMap.get_insert]
  split_ifs with hid
  · refine iff_of_false (fun heq => hne (Option.some.inj heq ▸ rfl)) fun hc => ?_
    exact hne ((h id c hc).trans hid)
  · rfl

omit [Libp2p] in
theorem store_maxPoolSize (pool : RawConnPool) (conn : P2pConn) (inbound : Bool) [Libp2p] :
    (pool.store conn inbound).maxPoolSize = pool.maxPoolSize := by
  unfold store
  split <;> rfl

end RawConnPool

/-! ### Any connections -/

section

variable [Libp2p]

/-- The runs of a pool of the given size, empty at first, that is given any connections. -/
def anyPoolLts (maxPoolSize : ℕ) : Lts PoolState PoolOp where
  init s := s.pool = .new maxPoolSize
  step s op s' := ∃ E, PoolStep E s op s'

theorem PoolStep.keyed {E : Established} {s s' : PoolState} {op : PoolOp} (h : s.pool.Keyed)
    (hst : PoolStep E s op s') : s'.pool.Keyed := by
  cases hst with
  | add order conn inbound hE he =>
    obtain ⟨pool, links, hall, hpool, -⟩ := h.removeAll (s.pool.purged s.links order) s.links
    rw [RawConnPool.add, RawConnPool.checkLimits_eq, hall] at he
    cases he
    exact hpool.store conn inbound
  | remove id he =>
    obtain ⟨pool, links, hremove, hpool, -⟩ := h.remove s.links id
    rw [hremove] at he
    cases he
    exact hpool
  | checkLimits order he =>
    obtain ⟨pool, links, hall, hpool, -⟩ := h.removeAll (s.pool.purged s.links order) s.links
    rw [RawConnPool.checkLimits_eq, hall] at he
    cases he
    exact hpool
  | byRaddr | byPeerId | status => exact h

theorem anyPoolLts_keyed {maxPoolSize : ℕ} {s : PoolState}
    (h : (anyPoolLts maxPoolSize).Reachable s) : s.pool.Keyed := by
  refine h.invariant (I := fun s => s.pool.Keyed) (fun s hs => ?_)
    fun _ _ _ hkeyed ⟨_, hst⟩ => hst.keyed hkeyed
  rw [hs]
  simp [RawConnPool.Keyed, RawConnPool.new]

end

/-! ### After an `add` -/

section

variable [Libp2p] {maxPoolSize : ℕ} {s : PoolState} {conn : P2pConn}

/-- A connection is open and has at least one active stream. -/
def Links.InUse (links : Links) (conn : P2pConn) : Prop :=
  links.isClosed conn = false ∧ 0 < links.actives conn

/-- After `conn` was added, the pool is not over its limit, or all other connections are in
use. -/
def PoolState.WithinLimit (s : PoolState) (conn : P2pConn) : Prop :=
  s.pool.len ≤ s.pool.maxPoolSize ∨ ∀ c, s.pool.Pooled c → c.id ≠ conn.id → s.links.InUse c

/-- There is room for `conn`: the pool is not exactly full, or it has the connection already, or
all its connections are in use. -/
def PoolState.HasRoom (s : PoolState) (conn : P2pConn) : Prop :=
  s.pool.len ≠ s.pool.maxPoolSize ∨ (s.pool.conns.get conn.id).isSome ∨
    ∀ c, s.pool.Pooled c → s.links.InUse c

/-- **The limit after an `add`.** -/
theorem PoolState.withinLimit_iff (h : s.pool.Keyed) {order : Shuffle (String × P2pConn)}
    {inbound : Bool} {pool : RawConnPool} {links : Links}
    (he : s.pool.add s.links order conn inbound = .ok (pool, links)) :
    PoolState.WithinLimit ⟨pool, links⟩ conn ↔ s.HasRoom conn := by
  rw [RawConnPool.add, RawConnPool.checkLimits_eq] at he
  by_cases hover : s.pool.maxPoolSize < s.pool.len
  · -- all connections that are not in use are removed
    refine iff_of_true (.inr fun c hc hne => ?_) (.inl (Nat.ne_of_gt hover))
    obtain ⟨pool₁, links₁, hall, h₁, -, hconns, hlinks⟩ :=
      h.removeAll (s.pool.purged s.links order) s.links
    rw [hall] at he
    cases he
    obtain ⟨id, hc⟩ := (RawConnPool.pooled_store_iff h₁ inbound hne).1 hc
    rw [hconns] at hc
    split_ifs at hc with hpurged
    obtain rfl := h id c hc
    have hsame : links c.id = s.links c.id := by
      rw [hlinks, if_neg fun hboth => hpurged hboth.1]
    rw [RawConnPool.purged, if_pos hover, RawConnPool.mem_purgeable] at hpurged
    have hbusy : ¬ (s.links.isClosed c = true ∨ s.links.actives c = 0) :=
      fun hidle => hpurged ⟨c, hc, hidle⟩
    rw [not_or, Bool.not_eq_true] at hbusy
    show (links c.id).closed = false ∧ 0 < (links c.id).actives
    rw [hsame]
    exact ⟨hbusy.1, Nat.pos_of_ne_zero hbusy.2⟩
  · -- nothing is removed, and the pool may grow by one
    rw [RawConnPool.purged, if_neg hover] at he
    cases he
    unfold PoolState.WithinLimit PoolState.HasRoom RawConnPool.len
    rw [RawConnPool.store_maxPoolSize, RawConnPool.store_conns]
    have hle : s.pool.conns.len ≤ s.pool.maxPoolSize := Nat.not_lt.1 hover
    cases hold : s.pool.conns.get conn.id with
    | some c =>
      rw [HashMap.len_insert_of_some conn hold]
      exact iff_of_true (.inl hle) (.inr (.inl rfl))
    | none =>
      rw [HashMap.len_insert_of_none conn hold]
      have hothers : (∀ c, (s.pool.store conn inbound).Pooled c → c.id ≠ conn.id →
          s.links.InUse c) ↔ ∀ c, s.pool.Pooled c → s.links.InUse c := by
        constructor
        · intro hall c hc
          have hne : c.id ≠ conn.id := by
            intro heq
            obtain ⟨id, hc⟩ := hc
            rw [← h id c hc, heq, hold] at hc
            cases hc
          exact hall c ((RawConnPool.pooled_store_iff h inbound hne).2 hc) hne
        · exact fun hall c hc hne =>
            hall c ((RawConnPool.pooled_store_iff h inbound hne).1 hc)
      rw [hothers]
      simp only [Option.isSome_none, Bool.false_eq_true, false_or]
      exact or_congr_left (by omega)

namespace PoolOp

/-- If the operation is an `add`, it leaves the pool within its limit. -/
def ObservesLimit (_ : List PoolOp) (s : PoolState) : PoolOp → Prop
  | .add order conn inbound => ∀ pool links,
    s.pool.add s.links order conn inbound = .ok (pool, links) →
      PoolState.WithinLimit ⟨pool, links⟩ conn
  | _ => True

omit [Libp2p] in
/-- If the operation is an `add`, there is room for the connection. -/
def FindsRoom (_ : List PoolOp) (s : PoolState) : PoolOp → Prop
  | .add _ conn _ => s.HasRoom conn
  | _ => True

end PoolOp

/-- **When the limit of the pool is observed**: it is observed after every `add` of a run, if and
only if every `add` of the run finds room. -/
theorem pool_limit_iff {h : List PoolOp} :
    (anyPoolLts maxPoolSize).RunWhere PoolOp.ObservesLimit h s ↔
      (anyPoolLts maxPoolSize).RunWhere PoolOp.FindsRoom h s := by
  refine Lts.RunWhere.congr fun h s op s' hr hst => ?_
  obtain ⟨E, hst⟩ := hst
  cases hst with
  | add order conn inbound hE he =>
    have hiff := PoolState.withinLimit_iff (anyPoolLts_keyed ⟨h, hr⟩) he
    constructor
    · exact fun hlimit => hiff.1 (hlimit _ _ he)
    · intro hroom pool links he'
      rw [he] at he'
      cases he'
      exact hiff.2 hroom
  | remove | checkLimits | byRaddr | byPeerId | status => exact Iff.rfl

end

section Sample

attribute [local instance] Libp2p.ed25519

/-- A connection to the node with key `keyA`. -/
def connTo (id : String) : P2pConn := ⟨id, keyA, [.ip4 0x7f000001, .tcp 4001, .tls]⟩

/-- All connections to the node. -/
def toOneNode : Established :=
  ⟨{conn | ∃ id, conn = connTo id}, by rintro _ ⟨id, rfl⟩ _ ⟨id', rfl⟩ -; exact ⟨rfl, rfl⟩⟩

/-- A full pool of size 1. -/
def fullPool : RawConnPool := (RawConnPool.new 1).store (connTo "c0") true

/-- A full pool takes in a second connection, although the first one is idle. -/
theorem add_over_limit :
    (anyPoolLts 1).Reachable ⟨fullPool, idleLinks⟩ ∧
    (anyPoolLts 1).step ⟨fullPool, idleLinks⟩ (.add .id (connTo "c1") true)
      ⟨fullPool.store (connTo "c1") true, idleLinks⟩ ∧
    ¬ PoolState.WithinLimit ⟨fullPool.store (connTo "c1") true, idleLinks⟩ (connTo "c1") := by
  refine ⟨(Lts.Reachable.start (s := ⟨.new 1, idleLinks⟩) rfl).snoc
    ⟨toOneNode, PoolStep.add .id (connTo "c0") true ⟨_, rfl⟩ rfl⟩,
    ⟨toOneNode, PoolStep.add .id _ true ⟨_, rfl⟩ rfl⟩, ?_⟩
  rintro (hle | hbusy)
  · exact absurd hle (by decide)
  · exact absurd (hbusy (connTo "c0") ⟨"c0", rfl⟩ (by decide)).2 (by decide)

end Sample

end XStack
