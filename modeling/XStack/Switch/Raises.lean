import XStack.Async.Passes
import XStack.Switch.Connect

/-!
# The events of a handshake

Setting up a connection touches the stream dispatcher, the peer book and the observed addresses, and
raises one event.  What the rest of the switch relies on is kept: an invariant that does not mind
any of this is kept by the whole block, whichever tasks run in between.  Among the events that are
raised, `HandshakeSuccess` is raised for nobody but the node that has identified itself.

## Main definitions

* `SwitchM.Frame I may` : setting up connections keeps `I` if it raises events in `may` only.
* `SwitchM.Raises x event` : a run of the block raises the event.

## Main results

* `SwitchM.Frame.handshake_keeps`, `SwitchM.Frame.transportConnect_keeps` : what the code keeps.
* `handshake_raises_iff`, `transportConnect_raises_iff` : when `HandshakeSuccess` is raised.
-/

namespace XStack

namespace SwitchM

/-- The invariant `I` does not mind what is done while a connection is set up, as long as the events
that are raised are in `may`. -/
structure Frame (I : SwitchState → Prop) (may : Event → Prop) : Prop where
  streamDispatcher : ∀ s raw, I s → I { s with streamDispatcher := raw }
  mutable : ∀ s mutable, I s → I { s with mutable }
  peerBook : ∀ s peerBook, I s → I { s with peerBook }
  close : ∀ s conn, I s → I { s with links := s.links.close conn }
  raise : ∀ s event, may event → I s → I { s with events := s.events ++ [event] }

/-- Some run of the block raises the event, while no other task does. -/
def Raises {α : Type} (x : SwitchM α) (event : Event) : Prop :=
  ∃ w : World SwitchState, w.Safe (fun s => event ∉ s.events) ∧ event ∈ (x w).2.state.events

theorem frame_not_raised (event : Event) :
    Frame (fun s => event ∉ s.events) fun other => other ≠ event where
  streamDispatcher _ _ hs := hs
  mutable _ _ hs := hs
  peerBook _ _ hs := hs
  close _ _ hs := hs
  raise s other hne hs := by
    show event ∉ s.events ++ [other]
    simpa [hs] using hne.symm

theorem Raises.of_does {α : Type} {x : SwitchM α} {event : Event} {s s' : SwitchState} {a : α}
    (h : x.Does s a s') (hs : event ∉ s.events) (hs' : event ∈ s'.events) : x.Raises event := by
  obtain ⟨n', h⟩ := h 0
  refine ⟨.alone 0 s, ⟨hs, fun _ _ hs => hs⟩, ?_⟩
  rw [h]
  exact hs'

theorem not_raises {α : Type} {x : SwitchM α} {event : Event}
    (h : x.Keeps fun s => event ∉ s.events) : ¬ x.Raises event := by
  rintro ⟨w, hw, hmem⟩
  exact (h w hw).state hmem

end SwitchM

/-! ### What the code keeps -/

section

variable {I : SwitchState → Prop} {may : Event → Prop} (hI : SwitchM.Frame I may)

include hI

theorem SwitchM.Frame.withDispatcher {α : Type}
    {f : RawMutexStreamDispatcher → Except Panic (α × RawMutexStreamDispatcher)} :
    (SwitchM.withDispatcher f).Keeps I := by
  refine Async.Keeps.lock fun s a s' hs h => ?_
  obtain ⟨⟨a', raw⟩, -, h⟩ := bind_eq_ok.1 h
  cases h
  exact hI.streamDispatcher s raw hs

theorem SwitchM.Frame.raises {event : Event} (he : may event) :
    (SwitchM.raise event).Keeps I :=
  Async.Keeps.lock fun s a s' hs h => by
    cases h
    exact hI.raise s event he hs

theorem SwitchM.Frame.setObservedAddrs (addrs : List Multiaddr) :
    (SwitchM.setObservedAddrs addrs).Keeps I :=
  Async.Keeps.lock fun s a s' hs h => by
    cases h
    exact hI.mutable s _ hs

theorem SwitchM.Frame.insertPeerInfo (info : PeerInfo) : (SwitchM.insertPeerInfo info).Keeps I :=
  Async.Keeps.lock fun s a s' hs h => by
    cases h
    exact hI.peerBook s _ hs

theorem SwitchM.Frame.dispatchAll_keeps (streams : List Inbound) :
    (dispatchAll streams).Keeps I := by
  induction streams with
  | nil => exact Async.Keeps.pure _
  | cons stream streams ih =>
    obtain ⟨stream, protocolId⟩ := stream
    exact Async.Keeps.bind hI.withDispatcher fun _ => ih

variable [Libp2p] {ops : SwitchOptions} {conn : P2pConn} {now : SystemTime}

theorem SwitchM.Frame.identityPush_keeps (connPeerId : PeerId) (received : List UInt8) :
    (identityPush ops connPeerId received now).Keeps I := by
  have hrecv : (xstackRecvIdentity received ops.maxPacketSize).Keeps I := by
    refine Async.Keeps.await.bind fun _ => (Async.Keeps.ofExcept _).bind fun ⟨bodyLen, rest⟩ => ?_
    simp only
    split
    · exact Async.Keeps.fail _
    · exact Async.Keeps.await.bind fun _ => (Async.Keeps.ofExcept _).bind fun _ =>
        Async.Keeps.ofExcept _
  refine Async.Keeps.bind hrecv fun identity => (Async.Keeps.ofExcept _).bind fun pubkey => ?_
  simp only
  split
  · exact Async.Keeps.fail _
  · refine (Async.Keeps.ofExcept _).bind fun raddrs => (Async.Keeps.ofExcept _).bind fun addrs => ?_
    exact Async.Keeps.bind (hI.setObservedAddrs _) fun _ =>
      Async.Keeps.bind (hI.insertPeerInfo _) fun _ => Async.Keeps.pure _

theorem SwitchM.Frame.identityRequest_keeps {stream : Except Error (List UInt8)}
    (hfailed : may (.handshakeFailed conn.id conn.peerId))
    (hsuccess : ∀ received, stream = .ok received →
      Identifies ops.maxPacketSize received conn.peerId →
      may (.handshakeSuccess conn.id conn.peerId)) :
    (identityRequest ops conn stream now).Keeps I := by
  refine Async.Keeps.await.bind fun _ => (Async.Keeps.ofExcept _).bind_may fun received hr => ?_
  have hpush : (identityPush ops conn.peerId received now).settle.Keeps I :=
    (hI.identityPush_keeps _ _).settle
  refine hpush.bind_may fun result hresult => ?_
  cases result with
  | ok u =>
    have hevent := hsuccess received (Async.may_ofExcept hr)
      (identityPush_may (Async.may_settle hresult))
    have hdispatch : (handshakeSuccess conn.id).Keeps I :=
      Async.Keeps.bind hI.withDispatcher hI.dispatchAll_keeps
    exact Async.Keeps.bind hdispatch fun _ => hI.raises hevent
  | error err =>
    exact Async.Keeps.bind hI.withDispatcher fun _ =>
      Async.Keeps.bind (hI.raises hfailed) fun _ => Async.Keeps.fail _

theorem SwitchM.Frame.handshake_keeps {attempt : Attempt} {timing : Timing}
    (hfailed : may (.handshakeFailed conn.id conn.peerId))
    (hsuccess : ∀ received, attempt.identify = .ok received →
      Identifies ops.maxPacketSize received conn.peerId →
      may (.handshakeSuccess conn.id conn.peerId)) :
    (handshake ops conn attempt timing).Keeps I :=
  Async.Keeps.bind hI.withDispatcher fun _ =>
    Async.Keeps.bind (Async.Keeps.timeout _ (hI.identityRequest_keeps hfailed hsuccess)) fun _ =>
      Async.Keeps.ofExcept _

/-- `transport_connect` keeps what does not mind the event that the handshake ends with. -/
theorem SwitchM.Frame.transportConnect_keeps {raddr : Multiaddr} {attempt : Attempt}
    {timing : Timing}
    (hfailed : ∀ conn : P2pConn, attempt.connect = .ok conn →
      may (.handshakeFailed conn.id conn.peerId))
    (hsuccess : ∀ conn, attempt.Completes ops raddr conn →
      may (.handshakeSuccess conn.id conn.peerId)) :
    (transportConnect ops raddr attempt timing).Keeps I := by
  have hdial : Async.Keeps I (Async.timeout timing.connect do
      Async.await
      Async.ofExcept attempt.connect : SwitchM (Option P2pConn)) :=
    Async.Keeps.timeout _ (Async.Keeps.await.bind fun _ => Async.Keeps.ofExcept _)
  refine (Async.Keeps.ofExcept _).bind_may fun transport htransport => ?_
  refine hdial.bind_may fun result hresult => ?_
  refine (Async.Keeps.ofExcept _).bind_may fun conn hconn => ?_
  -- the connection that is shaken hands with is the one that was dialled
  rw [okOr_ok_iff.1 (Async.may_ofExcept hconn)] at hresult
  obtain ⟨-, -, hresult⟩ := Async.may_bind (Async.may_timeout hresult)
  have hconnect : attempt.connect = .ok conn := Async.may_ofExcept hresult
  have hshake : (handshake ops conn attempt timing).Keeps I :=
    hI.handshake_keeps (hfailed conn hconnect) fun received hreceived hidentifies =>
      hsuccess conn ⟨⟨transport, okOr_ok_iff.1 (Async.may_ofExcept htransport)⟩, hconnect,
        received, hreceived, hidentifies⟩
  refine Async.Keeps.bind hshake.settle fun shaken => ?_
  cases shaken with
  | ok u => exact Async.Keeps.pure _
  | error err =>
    have hclosed : Async.Keeps I
        (Async.modify fun s => { s with links := s.links.close conn } : SwitchM Unit) :=
      Async.Keeps.modify fun s hs => hI.close s conn hs
    exact Async.Keeps.bind hclosed fun _ => Async.Keeps.fail _

end

/-! ### When a handshake succeeds -/

section

variable [Libp2p] {ops : SwitchOptions} {raddr : Multiaddr} {attempt : Attempt} {conn : P2pConn}
  {id : String} {peerId : PeerId}

/-- **Who may complete a handshake.**  On an accepted connection, `HandshakeSuccess` is raised for
the peer of the connection, if it identifies itself. -/
theorem handshake_raises_iff :
    (∃ timing, (handshake ops conn attempt timing).Raises (.handshakeSuccess id peerId)) ↔
      conn.id = id ∧ conn.peerId = peerId ∧ ∃ received, attempt.identify = .ok received ∧
        Identifies ops.maxPacketSize received conn.peerId := by
  constructor
  · rintro ⟨timing, hraises⟩
    by_contra hno
    refine SwitchM.not_raises
      ((SwitchM.frame_not_raised _).handshake_keeps (by simp) ?_) hraises
    rintro received hreceived hidentifies ⟨⟩
    exact hno ⟨rfl, rfl, received, hreceived, hidentifies⟩
  · -- alone, the handshake runs through
    rintro ⟨rfl, rfl, received, hreceived, hidentifies⟩
    let s : SwitchState := ⟨.default, ⟨0, []⟩, .default, .new 0, fun _ => ⟨false, 0⟩, []⟩
    obtain ⟨s', hdoes, -, -, hevents⟩ := handshake_does hreceived hidentifies 0 s
    exact ⟨_, .of_does hdoes (by simp [s]) (by simp [hevents])⟩

/-- **Who may be connected to.**  Dialling an address raises `HandshakeSuccess` for a node that
answers there and identifies itself, and for nobody else. -/
theorem transportConnect_raises_iff :
    (∃ timing, (transportConnect ops raddr attempt timing).Raises (.handshakeSuccess id peerId)) ↔
      ∃ conn, attempt.Completes ops raddr conn ∧ conn.id = id ∧ conn.peerId = peerId := by
  constructor
  · rintro ⟨timing, hraises⟩
    by_contra hno
    refine SwitchM.not_raises
      ((SwitchM.frame_not_raised _).transportConnect_keeps (by simp) ?_) hraises
    rintro conn hcompletes ⟨⟩
    exact hno ⟨conn, hcompletes, rfl, rfl⟩
  · rintro ⟨conn, hcompletes, rfl, rfl⟩
    let s : SwitchState := ⟨.default, ⟨0, []⟩, .default, .new 0, fun _ => ⟨false, 0⟩, []⟩
    obtain ⟨s', hdoes, -, -, hevents⟩ := transportConnect_does hcompletes 0 s
    exact ⟨_, .of_does hdoes (by simp [s]) (by simp [hevents])⟩

end

end XStack
