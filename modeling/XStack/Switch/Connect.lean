import XStack.Data.Except
import XStack.Switch.Protocols

/-!
# Setting up connections

`Switch::transport_connect` dials an address and identifies the node that answers.  It is not told
whom to expect: whoever answers passes, as long as the key in its identify message is the one it has
proved to own in the transport handshake.

What happens outside the switch is described by an `Attempt`, what becomes of dialling the address,
and a `Timing`, when the timers fire.

## Main results

* `Attempt.Completes` : a node answers and identifies itself.
* `transportConnect_may`, `transportConnect_does` : `transport_connect` returns a connection to such
  a node, and nothing else.
-/

namespace XStack

/-- What becomes of dialling an address. -/
structure Attempt where
  /-- What `DriverTransport::connect` comes to. -/
  connect : Except Error P2pConn
  /-- What opening the stream for the identify message comes to, and what the node sends on it. -/
  identify : Except Error (List UInt8)

/-- The timers of `transport_connect`, and the clock. -/
structure Timing where
  /-- When the timer for `connect` fires. -/
  connect : Option ℕ
  /-- When the timer for the handshake fires. -/
  identify : Option ℕ
  /-- The time at which the identify message is recorded. -/
  now : SystemTime

/-- No timer fires. -/
def Timing.prompt (now : SystemTime) : Timing := ⟨none, none, now⟩

section

variable [Libp2p]

/-- `Switch::handshake`; the incoming stream loop it spawns is one of the other tasks. -/
def handshake (ops : SwitchOptions) (conn : P2pConn) (attempt : Attempt) (timing : Timing) :
    SwitchM Unit := do
  SwitchM.withDispatcher fun raw => .ok ((), raw.handshake conn.id)
  let result ← Async.timeout timing.identify
    (identityRequest ops conn attempt.identify timing.now)
  Async.ofExcept (okOr .timeout result)

/-- `Switch::transport_connect`. -/
def transportConnect (ops : SwitchOptions) (raddr : Multiaddr) (attempt : Attempt)
    (timing : Timing) : SwitchM P2pConn := do
  let _transport ←
    Async.ofExcept (okOr (.unspportMultiAddr raddr) (ops.getTransportByAddress raddr))
  let result ← Async.timeout timing.connect do
    Async.await
    Async.ofExcept attempt.connect
  let conn ← Async.ofExcept (okOr .timeout result)
  match ← (handshake ops conn attempt timing).settle with
  | .error err =>
    Async.modify fun s => { s with links := s.links.close conn }
    Async.fail err
  | .ok () => pure conn

/-- A loop that returns the first connection that `transport_connect` sets up; `i` counts the
attempts. -/
def transportConnectAny (ops : SwitchOptions) (attempt : ℕ → Multiaddr → Attempt)
    (timing : ℕ → Timing) : ℕ → List Multiaddr → Option Error → SwitchM P2pConn
  | _, [], some lastError => Async.fail lastError
  | _, [], none => Async.abort .unwrap
  | i, raddr :: raddrs, _ => do
    match ← (transportConnect ops raddr (attempt i raddr) (timing i)).settle with
    | .ok conn => pure conn
    | .error err => transportConnectAny ops attempt timing (i + 1) raddrs (some err)

/-- A node answers and identifies itself: the address has a transport, the transport connects, and
the identify message has a key of the connected peer. -/
def Attempt.Completes (attempt : Attempt) (ops : SwitchOptions) (raddr : Multiaddr)
    (conn : P2pConn) : Prop :=
  (∃ transport, ops.getTransportByAddress raddr = some transport) ∧ attempt.connect = .ok conn ∧
    ∃ received, attempt.identify = .ok received ∧
      Identifies ops.maxPacketSize received conn.peerId

variable {ops : SwitchOptions} {raddr : Multiaddr} {attempt : Attempt} {timing : Timing}
  {conn : P2pConn}

theorem handshake_may (h : (handshake ops conn attempt timing).May ()) :
    ∃ received, attempt.identify = .ok received ∧
      Identifies ops.maxPacketSize received conn.peerId := by
  obtain ⟨-, -, h⟩ := Async.may_bind h
  obtain ⟨result, hrequest, h⟩ := Async.may_bind h
  rw [okOr_ok_iff.1 (Async.may_ofExcept h)] at hrequest
  obtain ⟨-, -, h⟩ := Async.may_bind (Async.may_timeout hrequest)
  obtain ⟨received, hreceived, h⟩ := Async.may_bind h
  obtain ⟨result, hpush, h⟩ := Async.may_bind h
  refine ⟨received, Async.may_ofExcept hreceived, ?_⟩
  cases result with
  | ok u => exact identityPush_may (Async.may_settle hpush)
  | error err =>
    obtain ⟨-, -, h⟩ := Async.may_bind h
    obtain ⟨-, -, h⟩ := Async.may_bind h
    exact absurd h Async.not_may_fail

/-- `transport_connect` returns a connection to a node that has answered and identified itself. -/
theorem transportConnect_may (h : (transportConnect ops raddr attempt timing).May conn) :
    attempt.Completes ops raddr conn := by
  obtain ⟨transport, htransport, h⟩ := Async.may_bind h
  obtain ⟨result, hconnect, h⟩ := Async.may_bind h
  obtain ⟨conn', hresult, h⟩ := Async.may_bind h
  obtain ⟨shaken, hshake, h⟩ := Async.may_bind h
  cases shaken with
  | error err =>
    obtain ⟨-, -, h⟩ := Async.may_bind h
    exact absurd h Async.not_may_fail
  | ok u =>
    cases Async.may_pure h
    rw [okOr_ok_iff.1 (Async.may_ofExcept hresult)] at hconnect
    obtain ⟨-, -, hconnect⟩ := Async.may_bind (Async.may_timeout hconnect)
    exact ⟨⟨transport, okOr_ok_iff.1 (Async.may_ofExcept htransport)⟩,
      Async.may_ofExcept hconnect, handshake_may (Async.may_settle hshake)⟩

theorem handshake_does {received : List UInt8} (hreceived : attempt.identify = .ok received)
    (h : Identifies ops.maxPacketSize received conn.peerId) (now : SystemTime) (s : SwitchState) :
    ∃ s', (handshake ops conn attempt (.prompt now)).Does s () s' ∧
      s'.connector = s.connector ∧ s'.links = s.links ∧
      s'.events = s.events ++ [.handshakeSuccess conn.id conn.peerId] := by
  obtain ⟨m, hm⟩ := h
  let s₁ : SwitchState := { s with streamDispatcher := s.streamDispatcher.handshake conn.id }
  let s₂ : SwitchState := m.record now s₁
  let s₃ : SwitchState :=
    { s₂ with streamDispatcher := (s₂.streamDispatcher.handshakeSuccess conn.id).2 }
  have hpush : (identityPush ops conn.peerId received now).Does s₁ () s₂ := by
    rw [← hm]
    exact identityPush_does m s₁
  -- nothing has been cached since the handshake was started
  have htaken : (s₂.streamDispatcher.handshakeSuccess conn.id).1 = [] := by
    simp [s₂, s₁, Identified.record, RawMutexStreamDispatcher.handshakeSuccess,
      RawMutexStreamDispatcher.handshake]
  have hsuccess : (handshakeSuccess conn.id).Does s₂ () s₃ := by
    have hdispatch :
        (dispatchAll (s₂.streamDispatcher.handshakeSuccess conn.id).1).Does s₃ () s₃ := by
      rw [htaken]
      exact .pure
    exact (SwitchM.withDispatcher_does rfl).bind hdispatch
  have hrequest : (identityRequest ops conn attempt.identify now).Does s₁ ()
      { s₃ with events := s₃.events ++ [.handshakeSuccess conn.id conn.peerId] } :=
    Async.Does.await.bind (Async.Does.bind (.ofExcept hreceived)
      (Async.Does.bind hpush.settle (hsuccess.bind (.lock rfl))))
  exact ⟨_, Async.Does.bind (.lock rfl) (hrequest.timeout.bind (.ofExcept rfl)), rfl, rfl, rfl⟩

/-- If no timer fires, `transport_connect` returns the connection to such a node, and says so. -/
theorem transportConnect_does (h : attempt.Completes ops raddr conn) (now : SystemTime)
    (s : SwitchState) :
    ∃ s', (transportConnect ops raddr attempt (.prompt now)).Does s conn s' ∧
      s'.connector = s.connector ∧ s'.links = s.links ∧
      s'.events = s.events ++ [.handshakeSuccess conn.id conn.peerId] := by
  obtain ⟨⟨transport, htransport⟩, hconnect, received, hreceived, hidentifies⟩ := h
  obtain ⟨s', hshake, hkept⟩ := handshake_does hreceived hidentifies now s
  refine ⟨s', ?_, hkept⟩
  refine Async.Does.bind (.ofExcept (okOr_ok_iff.2 htransport)) ?_
  have hdial : Async.Does (Async.await >>= fun _ => Async.ofExcept attempt.connect : SwitchM _)
      s conn s := Async.Does.await.bind (.ofExcept hconnect)
  exact hdial.timeout.bind (Async.Does.bind (.ofExcept rfl) (hshake.settle.bind .pure))

theorem transportConnect_late (ops : SwitchOptions) (raddr : Multiaddr) (attempt : Attempt)
    (timer : Option ℕ) (now : SystemTime) (s : SwitchState) :
    ∃ err, (transportConnect ops raddr attempt ⟨some 0, timer, now⟩).settle.Does s
      (.error err) s := by
  cases htransport : ops.getTransportByAddress raddr with
  | none =>
    refine ⟨.unspportMultiAddr raddr, ?_⟩
    unfold transportConnect
    rw [htransport]
    exact .settle_fail
  | some transport =>
    exact ⟨.timeout, Async.Does.settle_bind (.ofExcept (okOr_ok_iff.2 htransport))
      (Async.Does.settle_bind .timeout_zero .settle_fail)⟩

variable {attempts : ℕ → Multiaddr → Attempt} {timings : ℕ → Timing}

theorem transportConnectAny_may (raddrs : List Multiaddr) {i : ℕ} {lastError : Option Error}
    (h : (transportConnectAny ops attempts timings i raddrs lastError).May conn) :
    ∃ j, ∃ raddr ∈ raddrs, (attempts j raddr).Completes ops raddr conn := by
  induction raddrs generalizing i lastError with
  | nil =>
    cases lastError with
    | some err => exact absurd h Async.not_may_fail
    | none => exact absurd h Async.not_may_abort
  | cons raddr raddrs ih =>
    obtain ⟨result, hdial, h⟩ := Async.may_bind h
    cases result with
    | ok conn' =>
      cases Async.may_pure h
      exact ⟨i, raddr, List.mem_cons_self, transportConnect_may (Async.may_settle hdial)⟩
    | error err =>
      obtain ⟨j, raddr', hmem, hcompletes⟩ := ih h
      exact ⟨j, raddr', List.mem_cons_of_mem _ hmem, hcompletes⟩

/-- If the timers of the attempts before fire at once and one completes, the loop returns its
connection. -/
theorem transportConnectAny_does {now : SystemTime} (before : List Multiaddr)
    {after : List Multiaddr} {i : ℕ} {lastError : Option Error}
    (hlate : ∀ j < before.length, timings (i + j) = ⟨some 0, none, now⟩)
    (h : (attempts (i + before.length) raddr).Completes ops raddr conn)
    (ht : timings (i + before.length) = .prompt now) (s : SwitchState) :
    ∃ s', (transportConnectAny ops attempts timings i (before ++ raddr :: after) lastError).Does
      s conn s' := by
  induction before generalizing i lastError with
  | nil =>
    obtain ⟨s', hdial, -⟩ := transportConnect_does h now s
    refine ⟨s', ?_⟩
    have hdial' : (transportConnect ops raddr (attempts i raddr) (timings i)).Does s conn s' := by
      rw [show timings i = .prompt now from ht]
      exact hdial
    exact hdial'.settle.bind .pure
  | cons raddr' before ih =>
    obtain ⟨err, hfail⟩ := transportConnect_late ops raddr' (attempts i raddr') none now s
    have hnext : ∀ j, i + 1 + j = i + (j + 1) := fun j => by omega
    obtain ⟨s', hrest⟩ : ∃ s', (transportConnectAny ops attempts timings (i + 1)
        (before ++ raddr :: after) (some err)).Does s conn s' := by
      refine ih (fun j hj => ?_) ?_ ?_
      · rw [hnext]
        exact hlate (j + 1) (Nat.succ_lt_succ hj)
      · rw [hnext]
        exact h
      · rw [hnext]
        exact ht
    rw [← hlate 0 (Nat.succ_pos _)] at hfail
    exact ⟨s', hfail.bind hrest⟩

end

end XStack
