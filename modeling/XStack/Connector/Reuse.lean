import XStack.Connector.Dial
import XStack.Connector.Transports
import XStack.X509.Symbolic

/-!
# Reusing a connection by its address

After `connect` has dialled an address, the pool is meant to lead from the address to the peer, so
that the next `connect` does not dial again.  The entry is made for the address that the connection
reports, and it goes when *any* connection that reports this address is taken out of the pool.

## Main definitions

* `PoolState.Reuses` : `connect` is answered from the pool, by a connection to the right peer.
* `PoolOp.removes`, `PoolOp.indexes` : what an operation does to the entry for an address.
* `KeepsIndex` : an operation leaves an address leading to a peer.

## Main results

* `PoolStep.raddrs_get` : the entry for an address after a step.
* `PoolState.reuses_iff` : `connect` is answered from the pool if the address leads to the peer.
* `reuse_by_address_iff` : the runs in which the connection is reused.
* `dialled_again` : a run in which it is not.
-/

namespace XStack

/-! ### The entry for an address -/

namespace RawConnPool

/-- The ids that `check_limits` takes out of the pool. -/
def purged (pool : RawConnPool) (links : Links) (order : Shuffle (String × P2pConn)) :
    List String :=
  if pool.maxPoolSize < pool.len then pool.purgeable links order else []

/-- One of the connections with these ids reports the address. -/
def reported (pool : RawConnPool) (ids : List String) (raddr : Multiaddr) : Bool :=
  ids.any fun id => (pool.conns.get id).any (·.peerAddr == raddr)

variable {pool pool' : RawConnPool} {links links' : Links} {raddr : Multiaddr}

theorem reported_cons {id : String} {ids : List String} : pool.reported (id :: ids) raddr =
    ((pool.conns.get id).any (·.peerAddr == raddr) || pool.reported ids raddr) := rfl

variable [Libp2p]

theorem checkLimits_eq (pool : RawConnPool) (links : Links)
    (order : Shuffle (String × P2pConn)) :
    pool.checkLimits links order = removeAll (pool.purged links order) (pool, links) := by
  unfold checkLimits purged
  split_ifs <;> rfl

theorem remove_raddrs (h : pool.Consistent) {id : String}
    (he : pool.remove links id = .ok (pool', links')) :
    pool'.raddrs.get raddr =
      if (pool.conns.get id).any (·.peerAddr == raddr) then none else pool.raddrs.get raddr := by
  cases hc : pool.conns.get id with
  | none =>
    simp only [remove, hc] at he
    cases he
    rfl
  | some conn =>
    rw [remove_eq h hc] at he
    cases he
    by_cases hr : raddr = conn.peerAddr
    · simp [hr]
    · simp [HashMap.get_remove_ne hr, Ne.symm hr]

theorem removeAll_raddrs (ids : List String) (h : pool.Consistent)
    (he : removeAll ids (pool, links) = .ok (pool', links')) :
    pool'.raddrs.get raddr =
      if pool.reported ids raddr then none else pool.raddrs.get raddr := by
  induction ids generalizing pool links with
  | nil =>
    cases he
    rfl
  | cons id ids ih =>
    obtain ⟨pool₁, links₁, hremove, h₁, -, hconns⟩ := remove_spec h links id
    rw [removeAll, hremove] at he
    rw [ih h₁ he, remove_raddrs h hremove]
    cases hid : (pool.conns.get id).any (·.peerAddr == raddr) with
    | true => simp [reported_cons, hid]
    | false =>
      have hrest : pool₁.reported ids raddr = pool.reported ids raddr := by
        rw [Bool.eq_iff_iff, reported, reported, List.any_eq_true, List.any_eq_true]
        refine exists_congr fun id' => and_congr_right fun _ => ?_
        rw [hconns]
        split_ifs with hid'
        · rw [hid', hid, Option.any_none]
        · rfl
      rw [hrest, reported_cons, hid]
      simp

theorem store_raddrs (pool : RawConnPool) (conn : P2pConn) (inbound : Bool) :
    (pool.store conn inbound).raddrs.get raddr =
      if inbound = false ∧ conn.peerAddr = raddr ∧ pool.conns.get conn.id = none
      then some conn.peerId else pool.raddrs.get raddr := by
  unfold store
  cases hc : pool.conns.get conn.id with
  | some c => simp
  | none => 
    cases inbound
    · simp [HashMap.get_insert, eq_comm]
    · simp

end RawConnPool

namespace PoolOp

/-- The ids of the connections that an operation takes out of the pool. -/
def removes (s : PoolState) : PoolOp → List String
  | .add order _ _ => s.pool.purged s.links order
  | .checkLimits order => s.pool.purged s.links order
  | .remove id => [id]
  | _ => []

variable [Libp2p]

/-- The peer that an operation makes an address lead to: adding an outbound connection that is not
in the pool makes an entry for the address that the connection reports. -/
def indexes (s : PoolState) (raddr : Multiaddr) : PoolOp → Option PeerId
  | .add order conn false =>
    if conn.peerAddr = raddr ∧
      ((s.pool.conns.get conn.id).isNone ∨ conn.id ∈ s.pool.purged s.links order)
    then some conn.peerId else none
  | _ => none

end PoolOp

section

variable [Libp2p] {E : Established} {maxPoolSize : ℕ} {s s' : PoolState} {op : PoolOp}
  {raddr : Multiaddr} {conn : P2pConn} {peerId : PeerId}

/-- **The entry for an address after a step.** -/
theorem PoolStep.raddrs_get (hg : s.Good E) (hst : PoolStep E s op s') (raddr : Multiaddr) :
    s'.pool.raddrs.get raddr = (op.indexes s raddr).or
      (if s.pool.reported (op.removes s) raddr then none else s.pool.raddrs.get raddr) := by
  cases hst with
  | add order conn inbound hE he =>
    obtain ⟨pool₁, links₁, hlimits, -, -, hconns⟩ :=
      RawConnPool.removeAll_spec (s.pool.purged s.links order) hg.1 s.links
    rw [RawConnPool.add, RawConnPool.checkLimits_eq, hlimits] at he
    cases he
    have hnew : pool₁.conns.get conn.id = none ↔
        (s.pool.conns.get conn.id).isNone ∨ conn.id ∈ s.pool.purged s.links order := by
      rw [hconns, Option.isNone_iff_eq_none]
      split_ifs with hmem
      · simp [hmem]
      · simp [hmem]
    rw [RawConnPool.store_raddrs, RawConnPool.removeAll_raddrs _ hg.1 hlimits]
    simp only [hnew]
    unfold PoolOp.indexes PoolOp.removes
    cases inbound with
    | true => simp
    | false =>
      simp only [true_and]
      split_ifs <;> rfl
  | remove id he =>
    rw [RawConnPool.remove_raddrs hg.1 he]
    simp [PoolOp.indexes, PoolOp.removes, RawConnPool.reported]
  | checkLimits order he =>
    rw [RawConnPool.checkLimits_eq] at he
    exact RawConnPool.removeAll_raddrs _ hg.1 he
  | byRaddr => rfl
  | byPeerId => rfl
  | status => rfl

/-- The operation leaves the address leading to the peer: if it makes an entry for the address, it
is this one, and otherwise no connection that reports the address is taken out. -/
def KeepsIndex (raddr : Multiaddr) (peerId : PeerId) (_ : List PoolOp) (s : PoolState)
    (op : PoolOp) : Prop :=
  match op.indexes s raddr with
  | some indexed => indexed = peerId
  | none => s.pool.reported (op.removes s) raddr = false

/-- An address that leads to a peer still does so after a step if the step keeps the entry. -/
theorem PoolStep.keepsIndex_iff {h : List PoolOp} (hg : s.Good E) (hst : PoolStep E s op s')
    (hs : s.pool.raddrs.get raddr = some peerId) :
    s'.pool.raddrs.get raddr = some peerId ↔ KeepsIndex raddr peerId h s op := by
  rw [hst.raddrs_get hg, hs, KeepsIndex]
  cases op.indexes s raddr with
  | some indexed => simp
  | none => cases s.pool.reported (op.removes s) raddr <;> simp

/-! ### Looking an address up -/

/-- The next `connect` to the address is answered from the pool, by a connection to the peer of
`conn`: whatever transports there are and whatever dialling would come to, it leaves everything as
it is. -/
def PoolState.Reuses (raddr : Multiaddr) (conn : P2pConn) (s : PoolState) : Prop :=
  ∀ (ops : SwitchOptions) (choices : Choices) (switch : SwitchState),
    switch.connector = s.pool → switch.links = s.links →
    ∃ answer, (connect ops choices [raddr]).Does switch answer switch ∧
      s.pool.Pooled answer ∧ answer.peerId = conn.peerId

omit [Libp2p] in
theorem lookupRaddrs_does {choices : Choices} {switch : SwitchState} {answer : Option P2pConn}
    (h : switch.connector.byRaddr choices.rng raddr = .ok answer) :
    (lookupRaddrs choices [raddr]).Does switch answer switch := by
  have hlookup : (switch.connector.byRaddr choices.rng raddr).map
      (fun conn => (conn, switch.connector, switch.links)) =
      .ok (answer, switch.connector, switch.links) := by
    rw [h]
    rfl
  refine (SwitchM.withPool_does hlookup).bind ?_
  cases answer <;> exact .pure

/-- `connect` is answered from the pool by a connection to a peer if the address leads there. -/
theorem PoolState.reuses_iff (hg : s.Good E) :
    s.Reuses raddr conn ↔ s.pool.raddrs.get raddr = some conn.peerId := by
  constructor
  · intro hreuses
    -- a switch without transports cannot dial
    let switch : SwitchState := ⟨.default, ⟨0, []⟩, .default, s.pool, s.links, []⟩
    let choices : Choices := ⟨.head, .id, .id, fun _ _ => ⟨.error .timeout, .error .timeout⟩,
      fun _ => .prompt 0⟩
    obtain ⟨answer, hdoes, -, hpeer⟩ := hreuses ⟨0, []⟩ choices switch rfl rfl
    have hlookup : ∀ found, s.pool.byRaddr choices.rng raddr = .ok found →
        (lookupRaddrs choices [raddr]).Does switch found switch := fun _ he => lookupRaddrs_does he
    rcases RawConnPool.byRaddr_spec hg.1 choices.rng raddr with
      ⟨peerId, conn', hr, he, -, hp⟩ | ⟨hr, he⟩
    · have hanswer := (hlookup _ he).answers_bind hdoes.answers
      rw [hr, ← hp, Async.may_pure hanswer.may, hpeer]
    · have hanswer := (hlookup _ he).answers_bind hdoes.answers
      obtain ⟨_, _, _, ⟨⟨transport, htransport⟩, -⟩⟩ := dialAll_may _ hanswer.may
      cases htransport
  · intro hr ops choices switch hpool hlinks
    rcases RawConnPool.byRaddr_spec hg.1 choices.rng raddr with
      ⟨peerId, answer, hr', he, hc, hp⟩ | ⟨hr', -⟩
    · rw [hr] at hr'
      cases hr'
      rw [← hpool] at he
      exact ⟨answer, (lookupRaddrs_does he).bind .pure, hc, hp⟩
    · rw [hr] at hr'
      cases hr'

/-! ### After a dial -/

omit [Libp2p] in
theorem byRaddr_map_ok {pool pool' : RawConnPool} {links links' : Links} {rng : Chooser String}
    {answer : Option P2pConn}
    (h : (pool.byRaddr rng raddr).map (fun conn => (conn, pool, links)) =
      .ok (answer, pool', links')) :
    pool.byRaddr rng raddr = .ok answer ∧ pool' = pool ∧ links' = links := by
  cases he : pool.byRaddr rng raddr with
  | error reason =>
    rw [he] at h
    cases h
  | ok found =>
    rw [he] at h
    cases h
    exact ⟨rfl, rfl, rfl⟩

variable {ops : SwitchOptions} {choices : Choices} {w w' : World SwitchState}

/-- If `connect` returns a connection that nobody else puts in the pool, it has dialled, and ends
with adding the connection. -/
theorem connect_ok
    (hw : w.Safe fun s => (poolLts E maxPoolSize).Reachable ⟨s.connector, s.links⟩ ∧
      s.connector.conns.get conn.id = none)
    (h : connect ops choices [raddr] w = (.ok conn, w')) :
    (∃ s : PoolState, (poolLts E maxPoolSize).Reachable s ∧ s.pool.conns.get conn.id = none ∧
      s.pool.add s.links choices.order conn false = .ok (w'.state.connector, w'.state.links)) ∧
    ∃ i, (choices.attempt i raddr).Completes ops raddr conn := by
  let J : RawConnPool → Links → Prop := fun pool links =>
    (poolLts E maxPoolSize).Reachable ⟨pool, links⟩ ∧ pool.conns.get conn.id = none
  have hclose : ∀ pool links c, J pool links → J pool (links.close c) := fun pool links c hJ =>
    ⟨hJ.1.snoc (PoolStep.status c.id { links c.id with closed := true }), hJ.2⟩
  obtain ⟨pooled, w₂, hlookup, h⟩ := Async.bind_ok (x := lookupRaddrs choices [raddr]) h
  obtain ⟨answer, w₁, hpool, hlookup⟩ := Async.bind_ok hlookup
  have hw₁ : w₁.Safe fun s => J s.connector s.links := by
    have hkeeps : SwitchM.KeepsPool J (SwitchM.withPool fun pool links =>
        (pool.byRaddr choices.rng raddr).map fun conn => (conn, pool, links)) := by
      refine SwitchM.withPool_keepsPool fun pool links a pool' links' hJ he => ?_
      obtain ⟨-, rfl, rfl⟩ := byRaddr_map_ok he
      exact hJ
    have hnext := hkeeps w hw
    rw [hpool] at hnext
    exact hw.next hnext
  cases answer with
  | some found =>
    -- what the lookup finds is in the pool
    cases hlookup
    cases h
    obtain ⟨s, ⟨hreach, hnew⟩, he⟩ := SwitchM.withPool_ok hw hpool
    obtain ⟨he, -⟩ := byRaddr_map_ok he
    have hg := poolLts_good hreach
    rcases RawConnPool.byRaddr_spec hg.1 choices.rng raddr with
      ⟨peerId, conn', -, he', ⟨id, hc⟩, -⟩ | ⟨-, he'⟩
    · rw [he] at he'
      cases he'
      rw [hg.1.conn_id hc, hc] at hnew
      cases hnew
    · rw [he] at he'
      cases he'
  | none =>
    cases hlookup
    obtain ⟨⟨pool, links, ⟨hreach, hnew⟩, hadd⟩, i, raddr', hmem, hcompletes⟩ :=
      dialAll_ok hclose _ hw₁ h
    rw [choices.shuffle.mem_run, List.mem_singleton] at hmem
    exact ⟨⟨⟨pool, links⟩, hreach, hnew, hadd⟩, i, hmem ▸ hcompletes⟩

/-- The runs from a state on, as long as a connection stays open and in the pool. -/
def lifetime (E : Established) (maxPoolSize : ℕ) (conn : P2pConn) (s₁ : PoolState) :
    Lts PoolState PoolOp :=
  ((poolLts E maxPoolSize).startingAt s₁).within fun s =>
    s.pool.Pooled conn ∧ s.links.isClosed conn = false

/-- Adding a dialled connection leaves the address leading to its peer, if the connection reports
the address, or if the address led there before and the entry is not purged. -/
theorem PoolStep.dialled_iff {order : Shuffle (String × P2pConn)} (hg : s.Good E)
    (hnew : s.pool.conns.get conn.id = none) (hst : PoolStep E s (.add order conn false) s') :
    s'.pool.raddrs.get raddr = some conn.peerId ↔
      conn.peerAddr = raddr ∨ s.pool.raddrs.get raddr = some conn.peerId ∧
        s.pool.reported (s.pool.purged s.links order) raddr = false := by
  rw [hst.raddrs_get hg, PoolOp.indexes, PoolOp.removes]
  simp only [hnew, Option.isNone_none, true_or, and_true]
  by_cases haddr : conn.peerAddr = raddr
  · simp [haddr]
  · cases hreported : s.pool.reported (s.pool.purged s.links order) raddr <;> simp [haddr]

variable [X509.X509Crypto] [X509.Boring] [MultiaddrText]

/-- **When a dialled connection is reused.**  A call of `connect` has dialled an address and
returned a connection, which it has added to the pool in the state `s₀`.  Take a run from there on
in which the connection stays open and in the pool.  In all its states `connect` is answered from
the pool, by a connection to the same peer, if and only if the transport reports the address that it
has dialled (or the address led to the peer anyway), and every step of the run leaves the address
leading to the peer. -/
theorem reuse_by_address_iff (kind : TransportKind)
    (hw : w.Safe fun s => (poolLts E maxPoolSize).Reachable ⟨s.connector, s.links⟩ ∧
      s.connector.conns.get conn.id = none)
    (hE : conn ∈ E.conns)
    (hdial : ∀ i c, (choices.attempt i raddr).connect = .ok c → Connects kind raddr c)
    (hcall : connect ops choices [raddr] w = (.ok conn, w')) :
    ∃ s₀, (poolLts E maxPoolSize).Reachable s₀ ∧
      (poolLts E maxPoolSize).step s₀ (.add choices.order conn false)
        ⟨w'.state.connector, w'.state.links⟩ ∧
      ∀ h s,
        (kind.reports raddr = true ∨ s₀.pool.raddrs.get raddr = some conn.peerId ∧
          s₀.pool.reported (s₀.pool.purged s₀.links choices.order) raddr = false) ∧
        (lifetime E maxPoolSize conn ⟨w'.state.connector, w'.state.links⟩).RunWhere
          (KeepsIndex raddr conn.peerId) h s ↔
        (lifetime E maxPoolSize conn ⟨w'.state.connector, w'.state.links⟩).RunWhere
          (fun _ s _ => s.Reuses raddr conn) h s ∧ s.Reuses raddr conn := by
  obtain ⟨⟨s₀, hreach, hnew, hadd⟩, i, hcompletes⟩ := connect_ok hw hcall
  have hconnects : Connects kind raddr conn := hdial i conn hcompletes.2.1
  have hst : PoolStep E s₀ (.add choices.order conn false)
      ⟨w'.state.connector, w'.state.links⟩ := .add _ _ _ hE hadd
  refine ⟨s₀, hreach, hst, fun h s => ?_⟩
  have hgood : ∀ {h s}, (lifetime E maxPoolSize conn
      ⟨w'.state.connector, w'.state.links⟩).Run h s → s.Good E := fun hr =>
    poolLts_good ((hreach.snoc hst).within hr).1
  -- at the start of the run
  have hfirst : PoolState.Reuses raddr conn ⟨w'.state.connector, w'.state.links⟩ ↔
      kind.reports raddr = true ∨ s₀.pool.raddrs.get raddr = some conn.peerId ∧
        s₀.pool.reported (s₀.pool.purged s₀.links choices.order) raddr = false := by
    rw [PoolState.reuses_iff (poolLts_good (hreach.snoc hst)),
      hst.dialled_iff (poolLts_good hreach) hnew, hconnects.peerAddr_eq_iff]
  -- and from each state to the next
  have hvisits := fun hreuses => Lts.RunWhere.visits_iff
    (A := lifetime E maxPoolSize conn ⟨w'.state.connector, w'.state.links⟩)
    (C := KeepsIndex raddr conn.peerId) (I := PoolState.Reuses raddr conn) (h := h) (s := s)
    (fun s hi => hi.1 ▸ hreuses) ?_ ?_
  · rw [← hfirst]
    constructor
    · rintro ⟨hreuses, hr⟩
      exact (hvisits hreuses).1 hr
    · rintro ⟨hr, hs⟩
      obtain ⟨s₁, hi, hreuses⟩ := hr.init_of_visits hs
      exact ⟨hi.1 ▸ hreuses, (hvisits (hi.1 ▸ hreuses)).2 ⟨hr, hs⟩⟩
  · intro h s op s' hr hs hkeeps hst
    rw [PoolState.reuses_iff (hgood hr.run)] at hs
    rw [PoolState.reuses_iff (hgood (hr.run.snoc hst))]
    exact (PoolStep.keepsIndex_iff (hgood hr.run) hst.1 hs).2 hkeeps
  · intro h s op s' hr hs hst hs'
    rw [PoolState.reuses_iff (hgood hr)] at hs
    rw [PoolState.reuses_iff (hgood (hr.snoc hst))] at hs'
    exact (PoolStep.keepsIndex_iff (hgood hr) hst.1 hs).1 hs'

end

section Sample

open X509

attribute [local instance] Libp2p.ed25519 symbolic Boring.accepting

/-- The text format plays no part in the runs below. -/
@[reducible] def MultiaddrText.none : MultiaddrText := ⟨fun _ => .error .timeout, fun _ => ""⟩

attribute [local instance] MultiaddrText.none

/-- The QUIC address of the node with key `keyB`. -/
def quicB : Multiaddr := [.ip4 0x7f000001, .udp 4001, .quicV1]

/-- A connection to the node. -/
def quicConnB : P2pConn := ⟨"b", keyB, quicB⟩

/-- A switch whose only connection is `quicConnB`. -/
def onlyB : Established := ⟨{quicConnB}, by rintro c rfl d rfl _; exact ⟨rfl, rfl⟩⟩

/-- The node answers with its certificate. -/
def answersB (cert : Certificate) : QuicDialler where
  connect _ raddr := .ok ⟨"b", some (⟨.v4 0, 0⟩, raddr), some cert⟩
  path_remote hconn hpath := by
    cases hconn
    cases hpath
    rfl

/-- Dialling the node at an address with its socket address. -/
def dialB (cert : Certificate) (raddr : Multiaddr) : Attempt where
  connect := (QuicTransport.mk (.new 5 0)).connect (keyStoreOf keyA) (freshAt 0) (answersB cert)
    raddr 0
  identify := .ok (38 :: 0x0a :: 36 :: keyB.encodeProtobuf)

/-- The node is dialled wherever the switch dials. -/
def dialsB (cert : Certificate) : Choices where
  rng := .head
  shuffle := .id
  order := .id
  attempt _ := dialB cert
  timing _ := .prompt 0

/-- A switch with an empty pool. -/
def emptySwitch : SwitchState := ⟨.default, ⟨5, []⟩, .default, .new 20, idleLinks, []⟩

/-- The pool after the dial. -/
def pooledB : PoolState := ⟨(RawConnPool.new 20).store quicConnB false, idleLinks⟩

theorem dialB_connect {cert : Certificate} (hcert : verify cert 0 = .ok keyB) {raddr : Multiaddr}
    (haddr : raddr.toSockaddr = .ok ⟨.v4 0x7f000001, 4001⟩) :
    (dialB cert raddr).connect = .ok quicConnB := by
  have hconfig : ∃ config, createQuicConfig (keyStoreOf keyA) (freshAt 0) (.new 5 0) = .ok config :=
    ⟨_, rfl⟩
  obtain ⟨config, hconfig⟩ := hconfig
  simp [dialB, QuicTransport.connect, hconfig, haddr, answersB, okOr, hcert, bind, Except.bind,
    pure, Except.pure, quicConnB, quicB, Multiaddr.ofQuic, Multiaddr.ofIp]

/-- `connect` dials the node, and the connection to it is then the only one in the pool. -/
theorem connect_dialsB {cert : Certificate} (hcert : verify cert 0 = .ok keyB) (raddr : Multiaddr)
    (haddr : raddr.toSockaddr = .ok ⟨.v4 0x7f000001, 4001⟩) :
    ∃ w', connect anyTransport (dialsB cert) [raddr] (.alone 0 emptySwitch) = (.ok quicConnB, w') ∧
      w'.state.connector = pooledB.pool ∧ w'.state.links = pooledB.links := by
  have hcompletes : (dialB cert raddr).Completes anyTransport raddr quicConnB :=
    ⟨⟨_, rfl⟩, dialB_connect hcert haddr, _, rfl, identifies_keyB⟩
  have hmiss : emptySwitch.connector.byRaddr (dialsB cert).rng raddr = .ok none := rfl
  obtain ⟨s', hdial, hadd⟩ : ∃ s', (dialAll anyTransport (dialsB cert) 0 [raddr] none).Does
      emptySwitch quicConnB s' ∧
      emptySwitch.connector.add emptySwitch.links (dialsB cert).order quicConnB false =
        .ok (s'.connector, s'.links) :=
    dialAll_does (RawConnPool.consistent_new 20) hcompletes rfl
  have hconnect : (connect anyTransport (dialsB cert) [raddr]).Does emptySwitch quicConnB s' :=
    (lookupRaddrs_does hmiss).bind hdial
  obtain ⟨n, hrun⟩ := hconnect 0
  have hpooled : emptySwitch.connector.add emptySwitch.links (dialsB cert).order quicConnB false =
      .ok (pooledB.pool, pooledB.links) := rfl
  rw [hpooled] at hadd
  obtain ⟨hpool, hlinks⟩ := Prod.mk.inj (Except.ok.inj hadd)
  exact ⟨_, hrun, hpool.symm, hlinks.symm⟩

theorem safe_emptySwitch : (World.alone 0 emptySwitch).Safe fun s =>
    (poolLts onlyB 20).Reachable ⟨s.connector, s.links⟩ ∧
      s.connector.conns.get quicConnB.id = none :=
  ⟨⟨.start rfl, rfl⟩, fun _ _ h => h⟩

/-- Dialled at its address, the node is found again. -/
theorem reuse_by_address_iff_quicB : pooledB.Reuses quicB quicConnB := by
  obtain ⟨cert, -, -, hcert⟩ := exists_certificate
  obtain ⟨w', hcall, hpool, hlinks⟩ := connect_dialsB hcert quicB rfl
  obtain ⟨s₀, -, -, hiff⟩ := reuse_by_address_iff .quic safe_emptySwitch rfl
    (fun _ _ h => .quic h) hcall
  rw [hpool, hlinks] at hiff
  exact ((hiff [] pooledB).1 ⟨.inl rfl, .start ⟨rfl, ⟨"b", rfl⟩, rfl⟩⟩).2

/-- Dialled at its address with its peer id, the node is dialled again. -/
theorem dialled_again :
    ¬ ∀ (E : Established) (maxPoolSize : ℕ) (ops : SwitchOptions) (choices : Choices)
      (kind : TransportKind) (raddr : Multiaddr) (conn : P2pConn) (w w' : World SwitchState),
      (w.Safe fun s => (poolLts E maxPoolSize).Reachable ⟨s.connector, s.links⟩ ∧
        s.connector.conns.get conn.id = none) →
      conn ∈ E.conns →
      (∀ i c, (choices.attempt i raddr).connect = .ok c → Connects kind raddr c) →
      connect ops choices [raddr] w = (.ok conn, w') →
      ∀ h s, (lifetime E maxPoolSize conn ⟨w'.state.connector, w'.state.links⟩).Run h s →
        s.Reuses raddr conn := by
  intro hall
  obtain ⟨cert, -, -, hcert⟩ := exists_certificate
  obtain ⟨w', hcall, hpool, hlinks⟩ := connect_dialsB hcert (quicB ++ [.p2p keyB.toPeerId]) rfl
  have hreuses := hall onlyB 20 _ _ .quic _ quicConnB _ w' safe_emptySwitch rfl
    (fun _ _ h => .quic h) hcall
  rw [hpool, hlinks] at hreuses
  have hagain := hreuses [] pooledB (.start ⟨rfl, ⟨"b", rfl⟩, rfl⟩)
  have hgood : pooledB.Good onlyB := poolLts_good
    ((Lts.Reachable.start (s := ⟨.new 20, idleLinks⟩) rfl).snoc
      (PoolStep.add .id quicConnB false rfl rfl))
  rw [PoolState.reuses_iff hgood] at hagain
  exact absurd hagain (by decide)

end Sample

end XStack
