import XStack.Book
import XStack.Connector.Limit

/-!
# Evicting a connection before its stream is open

`Switch::connect` gets a connection from the pool and then opens a stream on it.  In between the
mutex of the pool is free, and the connection may have no active stream: a pool hit may be idle, and
a connection that was just dialled always is.  If another task adds a connection meanwhile and the
pool is over its limit, `check_limits` closes it (`evicted_before_open`).

Here any number of tasks call `Switch::connect`, in the phases that `connect`, `connect_to` and
`connect_raddrs` go through; each phase ends with one step, under the mutex where the code holds it.
What becomes of a dial and what the peer book answers is left open.  So is when streams are opened
and closed otherwise.

## Main definitions

* `ConnectTask` : the phases of a call.
* `ConnectStep`, `connectLts` : the steps of the tasks and of the others who use the pool.
* `ConnectOp.Evicts` : an operation closes a connection through `check_limits`.

## Main results

* `ConnectStep.reaches` : the tasks use the pool through its operations.
* `handed_out_iff` : the runs in which no connection is evicted that a task is about to use.
-/

namespace XStack

/-- `ConnectTo`. -/
inductive ConnectTo where
  | peerId (id : PeerId)
  | multiaddrs (raddrs : List Multiaddr)
  deriving DecidableEq, Repr

/-- The phases of a task that calls `Switch::connect`. -/
inductive ConnectTask where
  /-- It has not called, or the call has returned. -/
  | idle
  /-- `connect` is about to look up the second list of addresses. -/
  | lookup (raddrs rest : List Multiaddr)
  /-- `connect_to` is about to look up the peer in the pool. -/
  | lookupPeer (peerId : PeerId)
  /-- It was not there; `connect_to` is about to look it up in the peer book. -/
  | lookupInfo (peerId : PeerId)
  /-- `connect_raddrs` is about to dial the addresses. -/
  | dial (raddrs : List Multiaddr)
  /-- It has dialled one, and is about to add the connection to the pool. -/
  | dialled (conn : P2pConn)
  /-- The connection was returned, and the stream is about to be opened. -/
  | handed (conn : P2pConn)
  deriving DecidableEq, Repr

/-- The first phase of a call. -/
def ConnectTo.start : ConnectTo → ConnectTask
  | .peerId id => .lookupPeer id
  | .multiaddrs raddrs => if raddrs.isEmpty then .idle else .lookup raddrs raddrs

/-- The phase after a failed dial. -/
def ConnectTask.dialNext (raddrs : List Multiaddr) : ConnectTask :=
  if raddrs.isEmpty then .idle else .dial raddrs

/-- The phase after the lookup in the peer book. -/
def ConnectTask.found (shuffle : Shuffle Multiaddr) : Option PeerInfo → ConnectTask
  | some info => if info.addrs.isEmpty then .idle else .dial (shuffle.run info.addrs)
  | none => .idle

/-- The connection that a task has got. -/
def ConnectTask.conn : ConnectTask → Option P2pConn
  | .dialled conn => some conn
  | .handed conn => some conn
  | _ => none

@[simp] theorem ConnectTo.conn_start (target : ConnectTo) : target.start.conn = none := by
  unfold start
  split <;> [rfl; split_ifs <;> rfl]

@[simp] theorem ConnectTask.conn_dialNext (raddrs : List Multiaddr) :
    (dialNext raddrs).conn = none := by
  unfold dialNext
  split_ifs <;> rfl

@[simp] theorem ConnectTask.conn_found (shuffle : Shuffle Multiaddr) (info : Option PeerInfo) :
    (found shuffle info).conn = none := by
  unfold found
  split <;> [split_ifs <;> rfl; rfl]

/-- A pool, the status of the connections and the tasks. -/
structure ConnectState where
  /-- The pool and the connections. -/
  net : PoolState
  /-- The tasks. -/
  tasks : ℕ → ConnectTask

namespace ConnectState

/-- The state after a task has gone on to a phase. -/
def goOn (s : ConnectState) (i : ℕ) (phase : ConnectTask) : ConnectState :=
  { s with tasks := Function.update s.tasks i phase }

end ConnectState

/-- The steps of the tasks and of the others who use the pool. -/
inductive ConnectOp where
  | call (i : ℕ) (target : ConnectTo)
  | lookup (i : ℕ) (rng : Chooser String)
  | lookupPeer (i : ℕ) (rng : Chooser String)
  | lookupInfo (i : ℕ) (shuffle : Shuffle Multiaddr) (info : Option PeerInfo)
  | shuffle (i : ℕ) (shuffle : Shuffle Multiaddr)
  | dial (i : ℕ) (answer : Option P2pConn)
  | add (i : ℕ) (order : Shuffle (String × P2pConn))
  /-- The task opens its stream, or fails to. -/
  | connect (i : ℕ) (success : Bool)
  | incoming (order : Shuffle (String × P2pConn)) (conn : P2pConn)
  | replace (order : Shuffle (String × P2pConn)) (conn : P2pConn) (replaced : String)
    (inbound : Bool)
  | close (id : String)
  | status (id : String) (status : ConnStatus)

section

variable [Libp2p]

/-- The steps; all connections are among `E`. -/
inductive ConnectStep (E : Established) : ConnectState → ConnectOp → ConnectState → Prop
  | call {s : ConnectState} {i} (target : ConnectTo) : s.tasks i = .idle →
      ConnectStep E s (.call i target) (s.goOn i target.start)
  | hit {s : ConnectState} {i raddrs raddr rest rng conn} :
      s.tasks i = .lookup raddrs (raddr :: rest) →
      s.net.pool.byRaddr rng raddr = .ok (some conn) →
      ConnectStep E s (.lookup i rng) (s.goOn i (.handed conn))
  | miss {s : ConnectState} {i raddrs raddr rest rng} :
      s.tasks i = .lookup raddrs (raddr :: rest) → s.net.pool.byRaddr rng raddr = .ok none →
      ConnectStep E s (.lookup i rng) (s.goOn i (.lookup raddrs rest))
  | shuffle {s : ConnectState} {i raddrs} (shuffle : Shuffle Multiaddr) :
      s.tasks i = .lookup raddrs [] →
      ConnectStep E s (.shuffle i shuffle) (s.goOn i (.dial (shuffle.run raddrs)))
  | hitPeer {s : ConnectState} {i peerId rng conn} : s.tasks i = .lookupPeer peerId →
      s.net.pool.byPeerId rng peerId = .ok (some conn) →
      ConnectStep E s (.lookupPeer i rng) (s.goOn i (.handed conn))
  | missPeer {s : ConnectState} {i peerId rng} : s.tasks i = .lookupPeer peerId →
      s.net.pool.byPeerId rng peerId = .ok none →
      ConnectStep E s (.lookupPeer i rng) (s.goOn i (.lookupInfo peerId))
  | lookupInfo {s : ConnectState} {i peerId} (shuffle : Shuffle Multiaddr)
      (info : Option PeerInfo) : s.tasks i = .lookupInfo peerId →
      ConnectStep E s (.lookupInfo i shuffle info) (s.goOn i (.found shuffle info))
  | dialled {s : ConnectState} {i raddr rest conn} : s.tasks i = .dial (raddr :: rest) →
      conn ∈ E.conns → ConnectStep E s (.dial i (some conn)) (s.goOn i (.dialled conn))
  | unreachable {s : ConnectState} {i raddr rest} : s.tasks i = .dial (raddr :: rest) →
      ConnectStep E s (.dial i none) (s.goOn i (.dialNext rest))
  | add {s : ConnectState} {i conn pool links} (order) : s.tasks i = .dialled conn →
      s.net.pool.add s.net.links order conn false = .ok (pool, links) →
      ConnectStep E s (.add i order) ({ s with net := ⟨pool, links⟩ }.goOn i (.handed conn))
  | connect {s : ConnectState} {i conn} : s.tasks i = .handed conn →
      s.net.links.isClosed conn = false →
      ConnectStep E s (.connect i true) ({ s with net := { s.net with
        links := Function.update s.net.links conn.id
          { s.net.links conn.id with actives := s.net.links.actives conn + 1 } } }.goOn i .idle)
  | connectFailed {s : ConnectState} {i conn} : s.tasks i = .handed conn →
      ConnectStep E s (.connect i false) (s.goOn i .idle)
  | incoming {s : ConnectState} {conn pool links} (order) : conn ∈ E.conns →
      s.net.pool.add s.net.links order conn true = .ok (pool, links) →
      ConnectStep E s (.incoming order conn) { s with net := ⟨pool, links⟩ }
  | replace {s : ConnectState} {conn replaced pool links pool' links'} (order inbound) :
      conn ∈ E.conns → s.net.pool.remove s.net.links replaced = .ok (pool, links) →
      pool.add links order conn inbound = .ok (pool', links') →
      ConnectStep E s (.replace order conn replaced inbound) { s with net := ⟨pool', links'⟩ }
  | close {s : ConnectState} {pool links} (id) :
      s.net.pool.remove s.net.links id = .ok (pool, links) →
      ConnectStep E s (.close id) { s with net := ⟨pool, links⟩ }
  | status {s : ConnectState} (id status) :
      ConnectStep E s (.status id status) { s with net := { s.net with
        links := Function.update s.net.links id status } }

/-- The runs from an empty pool of the given size and idle tasks. -/
def connectLts (E : Established) (maxPoolSize : ℕ) : Lts ConnectState ConnectOp where
  init s := s.net.pool = .new maxPoolSize ∧ ∀ i, s.tasks i = .idle
  step := ConnectStep E

/-! ### What the steps do to the pool -/

variable {E : Established} {maxPoolSize : ℕ} {s s' : ConnectState} {op : ConnectOp}

/-- The tasks have got connections of `E` only. -/
def ConnectState.Holds (E : Established) (s : ConnectState) : Prop :=
  ∀ i conn, (s.tasks i).conn = some conn → conn ∈ E.conns

omit [Libp2p] in
theorem ConnectState.Holds.goOn (h : s.Holds E) {net : PoolState} {i : ℕ} {phase : ConnectTask}
    (hphase : ∀ conn, phase.conn = some conn → conn ∈ E.conns) :
    ({ s with net := net }.goOn i phase).Holds E := by
  intro j conn hconn
  simp only [ConnectState.goOn, Function.update_apply] at hconn
  split_ifs at hconn
  · exact hphase conn hconn
  · exact h j conn hconn

omit [Libp2p] in
/-- The tasks that have no connection yet, or no longer. -/
theorem ConnectState.Holds.goOn_none (h : s.Holds E) {net : PoolState} {i : ℕ}
    {phase : ConnectTask} (hphase : phase.conn = none) :
    ({ s with net := net }.goOn i phase).Holds E :=
  h.goOn fun conn hconn => by
    rw [hphase] at hconn
    cases hconn

/-- **The tasks use the pool through its operations**, and get connections of `E` only. -/
theorem ConnectStep.reaches (hst : ConnectStep E s op s') (hholds : s.Holds E)
    (hreach : (poolLts E maxPoolSize).Reachable s.net) :
    (poolLts E maxPoolSize).Reachable s'.net ∧ s'.Holds E := by
  have hg := poolLts_good hreach
  cases hst with
  | call target => exact ⟨hreach, hholds.goOn_none target.conn_start⟩
  | hit _ he =>
    refine ⟨hreach, hholds.goOn fun conn hconn => ?_⟩
    cases hconn
    rcases RawConnPool.byRaddr_spec hg.1 _ _ with ⟨-, conn', -, he', hpooled, -⟩ | ⟨-, he'⟩
    · rw [he] at he'
      cases he'
      exact hg.2 _ hpooled
    · rw [he] at he'
      cases he'
  | hitPeer _ he =>
    refine ⟨hreach, hholds.goOn fun conn hconn => ?_⟩
    cases hconn
    rcases RawConnPool.byPeerId_spec hg.1 _ _ with ⟨conn', he', hpooled, -⟩ | ⟨he', -⟩
    · rw [he] at he'
      cases he'
      exact hg.2 _ hpooled
    · rw [he] at he'
      cases he'
  | lookupInfo shuffle info =>
    exact ⟨hreach, hholds.goOn_none (ConnectTask.conn_found shuffle info)⟩
  | dialled _ hE =>
    refine ⟨hreach, hholds.goOn fun conn hconn => ?_⟩
    cases hconn
    exact hE
  | unreachable => exact ⟨hreach, hholds.goOn_none (ConnectTask.conn_dialNext _)⟩
  | miss | missPeer | shuffle | connectFailed => exact ⟨hreach, hholds.goOn_none rfl⟩
  | add order hi hadd =>
    -- the task adds the connection that it has got
    have hE := hholds _ _ (congrArg ConnectTask.conn hi)
    refine ⟨hreach.snoc (PoolStep.add order _ false hE hadd), hholds.goOn fun conn hconn => ?_⟩
    cases hconn
    exact hE
  | connect => exact ⟨hreach.snoc (PoolStep.status _ _), hholds.goOn_none rfl⟩
  | incoming order hE hadd => exact ⟨hreach.snoc (PoolStep.add order _ true hE hadd), hholds⟩
  | replace order inbound hE hremove hadd =>
    -- two operations of the pool in one step
    exact ⟨(hreach.snoc (PoolStep.remove _ hremove)).snoc (PoolStep.add order _ inbound hE hadd),
      hholds⟩
  | close id hremove => exact ⟨hreach.snoc (PoolStep.remove id hremove), hholds⟩
  | status id status => exact ⟨hreach.snoc (PoolStep.status id status), hholds⟩

theorem connectLts_good (hreach : (connectLts E maxPoolSize).Reachable s) :
    (poolLts E maxPoolSize).Reachable s.net ∧ s.Holds E :=
  hreach.invariant
    (fun _ hi => ⟨.start hi.1, fun i conn hconn => by
      rw [hi.2] at hconn
      cases hconn⟩)
    fun _ _ _ hgood hst => hst.reaches hgood.2 hgood.1

/-! ### Evictions -/

namespace ConnectOp

/-- The pool that the operation has when it calls `check_limits`, if it does. -/
def checks (s : ConnectState) : ConnectOp → Option (PoolState × Shuffle (String × P2pConn))
  | .add _ order => some (s.net, order)
  | .incoming order _ => some (s.net, order)
  | .replace order _ replaced _ =>
    match s.net.pool.remove s.net.links replaced with
    | .ok (pool, links) => some (⟨pool, links⟩, order)
    | .error _ => none
  | _ => none

/-- The operation closes the connection through `check_limits`. -/
def Evicts (s : ConnectState) (op : ConnectOp) (conn : P2pConn) : Prop :=
  ∃ net order pool' links', op.checks s = some (net, order) ∧
    net.pool.checkLimits net.links order = .ok (pool', links') ∧
    net.links.isClosed conn = false ∧ links'.isClosed conn = true

/-- The operation evicts no connection that was handed out and on which no stream is open yet. -/
def SparesHanded (_ : List ConnectOp) (s : ConnectState) (op : ConnectOp) : Prop :=
  ∀ i conn, s.tasks i = .handed conn → ¬ op.Evicts s conn

/-- When the operation calls `check_limits`, the pool is not over its limit, or every connection
that was handed out has an active stream, if it is open and still in the pool. -/
def FindsHandedBusy (_ : List ConnectOp) (s : ConnectState) (op : ConnectOp) : Prop :=
  ∀ net order, op.checks s = some (net, order) → net.pool.maxPoolSize < net.pool.len →
    ∀ i conn, s.tasks i = .handed conn → net.pool.Pooled conn → net.links.isClosed conn = false →
      0 < net.links.actives conn

end ConnectOp

/-- What `check_limits` is called with is a pool that the operations reach. -/
theorem ConnectOp.reachable_checks (hreach : (poolLts E maxPoolSize).Reachable s.net)
    {net : PoolState} {order : Shuffle (String × P2pConn)}
    (hchecks : op.checks s = some (net, order)) : (poolLts E maxPoolSize).Reachable net := by
  cases op with
  | add | incoming =>
    cases hchecks
    exact hreach
  | replace order conn replaced inbound =>
    rcases hremove : s.net.pool.remove s.net.links replaced with reason | ⟨pool, links⟩
    · simp only [checks, hremove] at hchecks
      cases hchecks
    · simp only [checks, hremove] at hchecks
      cases hchecks
      exact hreach.snoc (PoolStep.remove replaced hremove)
  | call | lookup | lookupPeer | lookupInfo | shuffle | dial | connect | close | status =>
    cases hchecks

/-- **When a connection is evicted.** -/
theorem ConnectOp.sparesHanded_iff {h : List ConnectOp}
    (hreach : (poolLts E maxPoolSize).Reachable s.net) (hholds : s.Holds E) :
    op.SparesHanded h s ↔ op.FindsHandedBusy h s := by
  -- a connection that is handed out is the one that is pooled under its id
  have hcloses : ∀ net order pool' links', op.checks s = some (net, order) →
      net.pool.checkLimits net.links order = .ok (pool', links') →
      ∀ i conn, s.tasks i = .handed conn → net.links.isClosed conn = false →
        (links'.isClosed conn = true ↔ net.pool.maxPoolSize < net.pool.len ∧
          net.pool.Pooled conn ∧ net.links.actives conn = 0) := by
    intro net order pool' links' hchecks hlimits i conn hi hopen
    have hg := poolLts_good (reachable_checks hreach hchecks)
    have hE := hholds i conn (congrArg ConnectTask.conn hi)
    exact RawConnPool.checkLimits_isClosed hg.1.keyed hlimits (fun c hc => hg.eq_of_id hE hc) hopen
  constructor
  · intro hspares net order hchecks hover i conn hi hpooled hopen
    have hg := poolLts_good (reachable_checks hreach hchecks)
    obtain ⟨pool', links', hlimits, -⟩ := RawConnPool.checkLimits_spec hg.1 net.links order
    refine Nat.pos_of_ne_zero fun hidle => hspares i conn hi ?_
    exact ⟨net, order, pool', links', hchecks, hlimits, hopen,
      (hcloses _ _ _ _ hchecks hlimits i conn hi hopen).2 ⟨hover, hpooled, hidle⟩⟩
  · rintro hbusy i conn hi ⟨net, order, pool', links', hchecks, hlimits, hopen, hclosed⟩
    obtain ⟨hover, hpooled, hidle⟩ := (hcloses _ _ _ _ hchecks hlimits i conn hi hopen).1 hclosed
    exact absurd hidle (Nat.ne_of_gt (hbusy net order hchecks hover i conn hi hpooled hopen))

/-- **When no connection is evicted before its stream is open**: in the runs in which, whenever
`check_limits` is called with a pool that is over its limit, the connections that were handed out,
are open and are still in the pool have active streams. -/
theorem handed_out_iff {h : List ConnectOp} :
    (connectLts E maxPoolSize).RunWhere ConnectOp.SparesHanded h s ↔
      (connectLts E maxPoolSize).RunWhere ConnectOp.FindsHandedBusy h s :=
  Lts.RunWhere.congr fun h _ _ _ hr _ =>
    let hgood := connectLts_good ⟨h, hr⟩
    ConnectOp.sparesHanded_iff hgood.1 hgood.2

end

section Sample

attribute [local instance] Libp2p.ed25519

/-- The pool after inbound connections have been added. -/
def fill (ids : List String) : RawConnPool :=
  ids.foldl (fun pool id => pool.store (connTo id) true) (.new 20)

theorem fill_concat (ids : List String) (id : String) :
    fill (ids ++ [id]) = (fill ids).store (connTo id) true := by
  simp [fill]

theorem len_fill_le (ids : List String) :
    (fill ids).len ≤ ids.length ∧ (fill ids).maxPoolSize = 20 := by
  induction ids using List.reverseRecOn with
  | nil => exact ⟨le_rfl, rfl⟩
  | append_singleton ids id ih =>
    rw [fill_concat, RawConnPool.store_maxPoolSize, RawConnPool.len, RawConnPool.store_conns,
      List.length_append]
    refine ⟨?_, ih.2⟩
    cases hold : (fill ids).conns.get (connTo id).id with
    | none =>
      rw [HashMap.len_insert_of_none _ hold]
      exact Nat.succ_le_succ ih.1
    | some c =>
      rw [HashMap.len_insert_of_some _ hold]
      exact Nat.le_succ_of_le ih.1

theorem reachable_fill (ids : List String) (hlen : ids.length ≤ 21) :
    (connectLts toOneNode 20).Reachable ⟨⟨fill ids, idleLinks⟩, fun _ => .idle⟩ := by
  induction ids using List.reverseRecOn with
  | nil => exact .start ⟨rfl, fun _ => rfl⟩
  | append_singleton ids id ih =>
    rw [List.length_append] at hlen
    obtain ⟨hle, hmax⟩ := len_fill_le ids
    have hadd : (fill ids).add idleLinks .id (connTo id) true =
        .ok (fill (ids ++ [id]), idleLinks) := by
      have hroom : ¬ (fill ids).maxPoolSize < (fill ids).len := by
        rw [hmax]
        exact Nat.not_lt.2 (Nat.le_trans hle (Nat.le_of_succ_le_succ hlen))
      rw [RawConnPool.add, RawConnPool.checkLimits, if_neg hroom, fill_concat]
      rfl
    exact (ih (Nat.le_of_succ_le hlen)).snoc (ConnectStep.incoming .id ⟨id, rfl⟩ hadd)

/-- 21 connections. -/
def manyIds : List String :=
  ["c0", "c1", "c2", "c3", "c4", "c5", "c6", "c7", "c8", "c9", "c10", "c11", "c12", "c13", "c14",
    "c15", "c16", "c17", "c18", "c19", "c20"]

/-- A task has got one of the connections. -/
def handedState : ConnectState :=
  ⟨⟨fill manyIds, idleLinks⟩, Function.update (fun _ => .idle) 0 (.handed (connTo "c0"))⟩

theorem reachable_handedState : (connectLts toOneNode 20).Reachable handedState := by
  have hfill := reachable_fill manyIds (by decide)
  have hg := poolLts_good (connectLts_good hfill).1
  have hpooled : (fill manyIds).Pooled (connTo "c0") := ⟨"c0", by decide⟩
  obtain ⟨ids, hids⟩ := (RawConnPool.exists_listed_iff hg.1).2 ⟨_, hpooled, rfl⟩
  obtain ⟨rng, hpick⟩ := RawConnPool.exists_pick hg.1 hids hpooled rfl
  have hlookup : (fill manyIds).byPeerId rng (connTo "c0").peerId = .ok (some (connTo "c0")) := by
    rw [RawConnPool.byPeerId, hids]
    exact hpick
  have hcall := hfill.snoc (ConnectStep.call (i := 0) (.peerId (connTo "c0").peerId) rfl)
  have hhit := hcall.snoc (ConnectStep.hitPeer (i := 0) rfl hlookup)
  simpa only [handedState, ConnectState.goOn, Function.update_idem] using hhit

/-- One more inbound connection, and the connection that the task has got is closed. -/
theorem evicted_before_open :
    (connectLts toOneNode 20).Reachable handedState ∧
    handedState.tasks 0 = .handed (connTo "c0") ∧
    ∃ s', (connectLts toOneNode 20).step handedState (.incoming .id (connTo "c21")) s' ∧
      (ConnectOp.incoming .id (connTo "c21")).Evicts handedState (connTo "c0") := by
  have hg := poolLts_good (connectLts_good reachable_handedState).1
  obtain ⟨pool, links, hlimits, -⟩ :=
    RawConnPool.checkLimits_spec hg.1 handedState.net.links (.id : Shuffle (String × P2pConn))
  have hadd : handedState.net.pool.add handedState.net.links .id (connTo "c21") true =
      .ok (pool.store (connTo "c21") true, links) := by
    rw [RawConnPool.add, hlimits]
    rfl
  have hE : connTo "c0" ∈ toOneNode.conns := ⟨"c0", rfl⟩
  refine ⟨reachable_handedState, rfl, _, ConnectStep.incoming .id ⟨"c21", rfl⟩ hadd,
    handedState.net, .id, pool, links, rfl, hlimits, rfl, ?_⟩
  exact (RawConnPool.checkLimits_isClosed hg.1.keyed hlimits (fun c hc => hg.eq_of_id hE hc) rfl).2
    ⟨by decide, ⟨"c0", by decide⟩, rfl⟩

end Sample

end XStack
