import XStack.Connector.Consistency
import XStack.Switch.Pool

/-!
# Connecting to a peer

`ConnPool::connect_to` answers a pooled connection to the peer, or dials the addresses that the peer
book lists for it.  The pool only ever answers connections to the peer (`byPeerId_spec`).  A dialled
connection is to whoever answers at the address: the node proves that it owns *some* key, and nobody
compares this key with the peer id that was asked for.

So `connect_to` can return a connection to a different peer (`connect_to_impostor`).  Whether it can
is decided by the nodes that may answer at the addresses of the book entry, which is not
authenticated (`connect_to_authentic_iff`).

## Main definitions

* `Choices` : what a call of `connect_to` does not control.
* `Network` : what may become of dialling an address.
* `connectRaddrs`, `connect`, `connectTo`, `replace` : the code.
-/

namespace XStack

/-- What a call of `connect_to` does not control. -/
structure Choices where
  /-- The connection that `by_peer_id` picks. -/
  rng : Chooser String
  /-- The order in which the addresses are dialled. -/
  shuffle : Shuffle Multiaddr
  /-- The order in which `check_limits` visits the pool. -/
  order : Shuffle (String × P2pConn)
  /-- What becomes of the attempts. -/
  attempt : ℕ → Multiaddr → Attempt
  /-- When the timers of an attempt fire. -/
  timing : ℕ → Timing

/-- What may become of dialling an address. -/
structure Network where
  /-- The possible outcomes. -/
  outcomes : Multiaddr → Set Attempt
  /-- There always is one. -/
  nonempty : ∀ raddr, (outcomes raddr).Nonempty

/-- The attempts are possible in the network. -/
def Choices.Within (choices : Choices) (net : Network) : Prop :=
  ∀ i raddr, choices.attempt i raddr ∈ net.outcomes raddr

section

variable [Libp2p]

/-- The loop of `connect_raddrs`; `i` counts the attempts. -/
def dialAll (ops : SwitchOptions) (choices : Choices) :
    ℕ → List Multiaddr → Option Error → SwitchM P2pConn
  | _, [], some lastError => Async.fail lastError
  | _, [], none => Async.abort .unwrap
  | i, raddr :: raddrs, _ => do
    match ← (transportConnect ops raddr (choices.attempt i raddr) (choices.timing i)).settle with
    | .ok conn =>
      SwitchM.withPool fun pool links =>
        (pool.add links choices.order conn false).map fun s => ((), s)
      pure conn
    | .error err => dialAll ops choices (i + 1) raddrs (some err)

/-- `ConnPool::connect_raddrs`. -/
def connectRaddrs (ops : SwitchOptions) (choices : Choices) (raddrs : List Multiaddr) :
    SwitchM P2pConn := dialAll ops choices 0 (choices.shuffle.run raddrs) none

/-- The lookups of `connect`, each under the mutex. -/
def lookupRaddrs (choices : Choices) : List Multiaddr → SwitchM (Option P2pConn)
  | [] => pure none
  | raddr :: raddrs => do
    let pooled ← SwitchM.withPool fun pool links =>
      (pool.byRaddr choices.rng raddr).map fun conn => (conn, pool, links)
    match pooled with
    | some conn => pure (some conn)
    | none => lookupRaddrs choices raddrs

/-- `ConnPool::connect`. -/
def connect (ops : SwitchOptions) (choices : Choices) (raddrs : List Multiaddr) :
    SwitchM P2pConn :=
  if raddrs.isEmpty then Async.fail .emptyPeerAddrs
  else do
    let pooled ← lookupRaddrs choices raddrs
    match pooled with
    | some conn => pure conn
    | none => connectRaddrs ops choices raddrs

/-- `ConnPool::connect_to`. -/
def connectTo (ops : SwitchOptions) (choices : Choices) (peerId : PeerId) : SwitchM P2pConn := do
  let pooled ← SwitchM.withPool fun pool links =>
    (pool.byPeerId choices.rng peerId).map fun conn => (conn, pool, links)
  match pooled with
  | some conn => pure conn
  | none =>
    match ← SwitchM.lookupPeerInfo peerId with
    | some peerInfo =>
      if peerInfo.addrs.isEmpty then Async.fail .peerNotFound
      else connectRaddrs ops choices peerInfo.addrs
    | none => Async.fail .peerNotFound

/-- `ConnPool::replace`. -/
def replace (order : Shuffle (String × P2pConn)) (conn : P2pConn) (replaced : String)
    (inbound : Bool) : SwitchM Unit :=
  SwitchM.withPool fun pool links => do
    let (pool, links) ← pool.remove links replaced
    let (pool, links) ← pool.add links order conn inbound
    return ((), pool, links)

variable {ops : SwitchOptions} {choices : Choices} {peerId : PeerId}

theorem replace_ok {order : Shuffle (String × P2pConn)} {conn : P2pConn} {replaced : String}
    {inbound : Bool} {w w' : World SwitchState}
    (h : replace order conn replaced inbound w = (.ok (), w')) :
    w'.state.connector.Pooled conn := by
  have hw : w.Safe fun _ => True := ⟨trivial, fun _ _ _ => trivial⟩
  obtain ⟨s, -, h⟩ := SwitchM.withPool_ok hw h
  obtain ⟨⟨pool₁, links₁⟩, -, h⟩ := bind_eq_ok.1 h
  obtain ⟨⟨pool₂, links₂⟩, hadd, h⟩ := bind_eq_ok.1 h
  obtain ⟨hpool, -⟩ := Prod.mk.inj (Prod.mk.inj (Except.ok.inj h)).2
  rw [← hpool]
  rcases hlimits : pool₁.checkLimits links₁ order with reason | ⟨pool, links⟩
  · rw [RawConnPool.add, hlimits] at hadd
    cases hadd
  · rw [RawConnPool.add, hlimits] at hadd
    cases hadd
    exact ⟨conn.id, by rw [RawConnPool.store_conns, HashMap.get_insert_self]⟩

/-- A connection that the loop returns is to a node that has answered one of the attempts. -/
theorem dialAll_may {conn : P2pConn} (raddrs : List Multiaddr) {i : ℕ} {lastError : Option Error}
    (h : (dialAll ops choices i raddrs lastError).May conn) :
    ∃ j, ∃ raddr ∈ raddrs, (choices.attempt j raddr).Completes ops raddr conn := by
  induction raddrs generalizing i lastError with
  | nil =>
    cases lastError with
    | some err => exact absurd h Async.not_may_fail
    | none => exact absurd h Async.not_may_abort
  | cons raddr raddrs ih =>
    obtain ⟨result, hdial, h⟩ := Async.may_bind h
    cases result with
    | ok conn' =>
      obtain ⟨-, -, h⟩ := Async.may_bind h
      cases Async.may_pure h
      exact ⟨i, raddr, List.mem_cons_self, transportConnect_may (Async.may_settle hdial)⟩
    | error err =>
      obtain ⟨j, raddr', hmem, hcompletes⟩ := ih h
      exact ⟨j, raddr', List.mem_cons_of_mem _ hmem, hcompletes⟩

/-- The loop ends with adding the connection that it returns to the pool, which until then has been
kept as it was. -/
theorem dialAll_ok {J : RawConnPool → Links → Prop}
    (hclose : ∀ pool links conn, J pool links → J pool (links.close conn)) {conn : P2pConn}
    (raddrs : List Multiaddr) {i : ℕ} {lastError : Option Error} {w w' : World SwitchState}
    (hw : w.Safe fun s => J s.connector s.links)
    (h : dialAll ops choices i raddrs lastError w = (.ok conn, w')) :
    (∃ pool links, J pool links ∧ pool.add links choices.order conn false =
      .ok (w'.state.connector, w'.state.links)) ∧
    ∃ j, ∃ raddr ∈ raddrs, (choices.attempt j raddr).Completes ops raddr conn := by
  refine ⟨?_, dialAll_may raddrs ⟨w, w', h⟩⟩
  induction raddrs generalizing i lastError w with
  | nil => cases lastError <;> cases h
  | cons raddr raddrs ih =>
    obtain ⟨result, w₁, hdial, h⟩ := Async.bind_ok h
    -- a dial touches the pool at most by closing its connection
    have hw₁ : w₁.Safe fun s => J s.connector s.links := by
      have hkeeps := Async.Keeps.settle (transportConnect_keepsPool hclose ops raddr
        (choices.attempt i raddr) (choices.timing i)) w hw
      rw [hdial] at hkeeps
      exact hw.next hkeeps
    cases result with
    | error err => exact ih hw₁ h
    | ok conn' =>
      obtain ⟨u, w₂, hadd, h⟩ := Async.bind_ok h
      cases h
      obtain ⟨s, hs, hadd⟩ := SwitchM.withPool_ok hw₁ hadd
      refine ⟨s.connector, s.links, hs, ?_⟩
      rcases hresult : s.connector.add s.links choices.order conn false with reason | ⟨pool, links⟩
      · rw [hresult] at hadd
        cases hadd
      · rw [hresult] at hadd
        simpa [Except.map] using hadd

/-- If the first attempt completes, the loop returns its connection, and adds it to the pool. -/
theorem dialAll_does {s : SwitchState} (hs : s.connector.Consistent) {raddr : Multiaddr}
    {raddrs : List Multiaddr} {i : ℕ} {lastError : Option Error} {conn : P2pConn}
    {now : SystemTime} (h : (choices.attempt i raddr).Completes ops raddr conn)
    (ht : choices.timing i = .prompt now) :
    ∃ s', (dialAll ops choices i (raddr :: raddrs) lastError).Does s conn s' ∧
      s.connector.add s.links choices.order conn false = .ok (s'.connector, s'.links) := by
  obtain ⟨s₁, hdial, hpool, hlinks, -⟩ := transportConnect_does h now s
  obtain ⟨pool, links, hlimits, -⟩ := RawConnPool.checkLimits_spec hs s.links choices.order
  have hadd : s.connector.add s.links choices.order conn false =
      .ok (pool.store conn false, links) := by
    rw [RawConnPool.add, hlimits]
    rfl
  have hadd₁ : (s₁.connector.add s₁.links choices.order conn false).map (fun s => ((), s)) =
      .ok ((), pool.store conn false, links) := by
    rw [hpool, hlinks, hadd]
    rfl
  rw [← ht] at hdial
  exact ⟨_, hdial.settle.bind ((SwitchM.withPool_does hadd₁).bind .pure), hadd⟩

omit [Libp2p] in
theorem pooled_does {s : SwitchState} {answer : Option P2pConn}
    (h : s.connector.byPeerId choices.rng peerId = .ok answer) :
    Async.Does (SwitchM.withPool fun pool links =>
      (pool.byPeerId choices.rng peerId).map fun conn => (conn, pool, links)) s answer s := by
  have hlookup : (s.connector.byPeerId choices.rng peerId).map
      (fun conn => (conn, s.connector, s.links)) = .ok (answer, s.connector, s.links) := by
    rw [h]
    rfl
  exact SwitchM.withPool_does hlookup

/-- A connection that `connect_to` returns comes from the pool and is to the peer, or it was dialled
at an address of the peer's book entry. -/
theorem connectTo_answers {s : SwitchState} (hs : s.connector.Consistent) {conn : P2pConn}
    (h : (connectTo ops choices peerId).Answers s conn) :
    conn.peerId = peerId ∨
    (∀ c, s.connector.Pooled c → c.peerId ≠ peerId) ∧
      ∃ info, s.peerBook.get peerId = some info ∧ ∃ i, ∃ raddr ∈ info.addrs,
        (choices.attempt i raddr).Completes ops raddr conn := by
  rcases RawConnPool.byPeerId_spec hs choices.rng peerId with ⟨conn', he, -, hp⟩ | ⟨he, hno⟩
  · have hanswer := (pooled_does he).answers_bind h
    rw [← Async.may_pure hanswer.may]
    exact .inl hp
  · refine .inr ⟨hno, ?_⟩
    have hbook : (SwitchM.lookupPeerInfo peerId).Does s (s.peerBook.get peerId) s := .lock rfl
    have hanswer := hbook.answers_bind ((pooled_does he).answers_bind h)
    rcases hinfo : s.peerBook.get peerId with _ | info <;> rw [hinfo] at hanswer
    · exact absurd hanswer.may Async.not_may_fail
    · simp only at hanswer
      split_ifs at hanswer with hempty
      · exact absurd hanswer.may Async.not_may_fail
      · obtain ⟨i, raddr, hmem, hcompletes⟩ := dialAll_may _ hanswer.may
        exact ⟨info, rfl, i, raddr, (choices.shuffle.mem_run).1 hmem, hcompletes⟩

/-- Without a pooled connection to the peer, `connect_to` can return the connection to whoever
answers first at an address of the book entry. -/
theorem connectTo_does {s : SwitchState} (hs : s.connector.Consistent)
    (hno : ∀ c, s.connector.Pooled c → c.peerId ≠ peerId) {info : PeerInfo}
    (hinfo : s.peerBook.get peerId = some info) {raddr : Multiaddr} {raddrs : List Multiaddr}
    (hfirst : choices.shuffle.run info.addrs = raddr :: raddrs) {conn : P2pConn} {now : SystemTime}
    (h : (choices.attempt 0 raddr).Completes ops raddr conn)
    (ht : choices.timing 0 = .prompt now) : (connectTo ops choices peerId).Answers s conn := by
  rcases RawConnPool.byPeerId_spec hs choices.rng peerId with ⟨conn', -, hc, hp⟩ | ⟨he, -⟩
  · exact absurd hp (hno conn' hc)
  have hbook : (SwitchM.lookupPeerInfo peerId).Does s (s.peerBook.get peerId) s := .lock rfl
  have hne : info.addrs.isEmpty = false := by
    have hmem : raddr ∈ info.addrs :=
      choices.shuffle.mem_run.1 (by rw [hfirst]; exact List.mem_cons_self)
    cases haddrs : info.addrs with
    | nil => simp [haddrs] at hmem
    | cons => rfl
  obtain ⟨s', hdial, -⟩ : ∃ s', (dialAll ops choices 0 (raddr :: raddrs) none).Does s conn s' ∧
      s.connector.add s.links choices.order conn false = .ok (s'.connector, s'.links) :=
    dialAll_does hs h ht
  have hanswer : (connectTo ops choices peerId).Does s conn s' := by
    refine (pooled_does he).bind (hbook.bind ?_)
    rw [hinfo]
    simp only [hne, Bool.false_eq_true, ↓reduceIte, connectRaddrs, hfirst]
    exact hdial
  exact hanswer.answers

variable {E : Established} {maxPoolSize : ℕ} {s : SwitchState}

/-- **When `connect_to` authenticates the peer.**  In every reachable state of the pool, and
whatever the peer book contains, `connect_to` returns connections to the peer only, if and only if
the pool has one, or every node that may answer at an address of the peer's book entry, and identify
itself, is the peer. -/
theorem connect_to_authentic_iff (net : Network)
    (hs : (poolLts E maxPoolSize).Reachable ⟨s.connector, s.links⟩) :
    (∀ choices : Choices, choices.Within net → ∀ conn,
      (connectTo ops choices peerId).Answers s conn → conn.peerId = peerId) ↔
    (∃ conn, s.connector.Pooled conn ∧ conn.peerId = peerId) ∨
    ∀ info, s.peerBook.get peerId = some info → ∀ raddr ∈ info.addrs,
      ∀ attempt ∈ net.outcomes raddr, ∀ conn, attempt.Completes ops raddr conn →
        conn.peerId = peerId := by
  have hconsistent : s.connector.Consistent := (poolLts_good hs).1
  constructor
  · intro hall
    by_cases hpooled : ∃ conn, s.connector.Pooled conn ∧ conn.peerId = peerId
    · exact .inl hpooled
    refine .inr ?_
    intro info hinfo raddr hmem attempt hattempt conn hcompletes
    -- dial this address first, and let it be answered this way
    have hperm : (raddr :: info.addrs.erase raddr).Perm info.addrs :=
      (List.perm_cons_erase hmem).symm
    let choices : Choices := {
      rng := .head
      shuffle := .single info.addrs (raddr :: info.addrs.erase raddr) hperm
      order := .id
      attempt := fun i a => if i = 0 ∧ a = raddr then attempt else (net.nonempty a).choose
      timing := fun _ => .prompt 0 }
    refine hall choices (fun i a => ?_) conn (connectTo_does hconsistent ?_ hinfo
      (Shuffle.single_run _ _ hperm) (by simpa [choices] using hcompletes) rfl)
    · by_cases ha : i = 0 ∧ a = raddr
      · simpa [choices, ha] using hattempt
      · simpa [choices, ha] using (net.nonempty a).choose_spec
    · intro c hc hp
      exact hpooled ⟨c, hc, hp⟩
  · intro hcondition choices hwithin conn hanswers
    rcases connectTo_answers hconsistent hanswers with hp | ⟨hno, info, hinfo, i, raddr, hmem, hc⟩
    · exact hp
    · rcases hcondition with ⟨c, hc', hp⟩ | hnodes
      · exact absurd hp (hno c hc')
      · exact hnodes info hinfo raddr hmem _ (hwithin i raddr) conn hc

end

section Sample

attribute [local instance] Libp2p.ed25519

/-- A transport for every address. -/
def anyTransport : SwitchOptions := ⟨4194304, [⟨fun _ => true⟩]⟩

/-- The address in the book. -/
def loopbackTcp : Multiaddr := [.ip4 0x7f000001, .tcp 4001, .tls]

/-- The node with the given key answers, and sends its identify message. -/
def answeredBy (key : PublicKey) : Attempt where
  connect := .ok ⟨"b", key, loopbackTcp⟩
  identify := .ok (38 :: 0x0a :: 36 :: key.encodeProtobuf)

theorem identifies_keyB :
    Identifies anyTransport.maxPacketSize (38 :: 0x0a :: 36 :: keyB.encodeProtobuf)
      keyB.toPeerId :=
  ⟨⟨38, 0x0a :: 36 :: keyB.encodeProtobuf, ⟨keyB.encodeProtobuf, [], none, []⟩, keyB, [], [], rfl,
    by decide, by decide, rfl, rfl, rfl, rfl⟩, rfl⟩

/-- A switch with an empty pool, whose book lists the address for the node with key `keyA`. -/
def listedA : SwitchState where
  peerBook := (RawMemoryPeerBook.default.insert ⟨keyA.toPeerId, [loopbackTcp], [], none, none⟩).2
  mutable := ⟨5, []⟩
  streamDispatcher := .default
  connector := .new 20
  links := idleLinks
  events := []

/-- The node with key `keyB` answers wherever it is dialled. -/
def answeredByB : Choices where
  rng := .head
  shuffle := .id
  order := .id
  attempt _ _ := answeredBy keyB
  timing _ := .prompt 0

/-- Anything may happen. -/
def anyNetwork : Network := ⟨fun _ => Set.univ, fun _ => ⟨answeredBy keyB, trivial⟩⟩

/-- The same switch with a connection to the node with key `keyA` in its pool. -/
def pooledA : SwitchState := { listedA with connector := (RawConnPool.new 20).store connA false }

theorem connect_to_authentic_iff_pooledA :
    (∀ choices : Choices, choices.Within anyNetwork → ∀ conn,
      (connectTo anyTransport choices keyA.toPeerId).Answers pooledA conn →
        conn.peerId = keyA.toPeerId) ∧
    ∃ conn, pooledA.connector.Pooled conn ∧ conn.peerId = keyA.toPeerId := by
  have hpooled : ∃ conn, pooledA.connector.Pooled conn ∧ conn.peerId = keyA.toPeerId :=
    ⟨connA, ⟨"a", rfl⟩, rfl⟩
  exact ⟨(connect_to_authentic_iff anyNetwork reachable_onlyA).2 (.inl hpooled), hpooled⟩

/-- The pool is empty, the book lists one address for the node with key `keyA`, and the node with
key `keyB` answers there: `connect_to` returns the connection to it. -/
theorem connect_to_impostor :
    ¬ ∀ (E : Established) (maxPoolSize : ℕ) (ops : SwitchOptions) (s : SwitchState),
      (poolLts E maxPoolSize).Reachable ⟨s.connector, s.links⟩ →
      ∀ (choices : Choices) peerId conn,
        (connectTo ops choices peerId).Answers s conn → conn.peerId = peerId := by
  intro hall
  have hcompletes : (answeredBy keyB).Completes anyTransport loopbackTcp
      ⟨"b", keyB, loopbackTcp⟩ :=
    ⟨⟨_, rfl⟩, rfl, _, rfl, identifies_keyB⟩
  have hempty : ∀ c, listedA.connector.Pooled c → c.peerId ≠ keyA.toPeerId := by
    rintro c ⟨id, hc⟩
    simp [listedA, RawConnPool.new] at hc
  have hfirst : answeredByB.shuffle.run [loopbackTcp] = loopbackTcp :: [] := rfl
  have hanswers : (connectTo anyTransport answeredByB keyA.toPeerId).Answers listedA _ :=
    connectTo_does (RawConnPool.consistent_new 20) hempty rfl hfirst hcompletes rfl
  have hpeer := hall onlyA 20 anyTransport listedA (.start rfl) answeredByB _ _ hanswers
  exact absurd hpeer (by decide)

end Sample

end XStack
