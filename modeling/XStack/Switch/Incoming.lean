import XStack.Data.TryStream
import XStack.Quic.Basic
import XStack.Tls.Basic
import XStack.X509.Symbolic

/-!
# Accepting connections

`Switch::handle_incoming` takes the connections from a transport listener and starts a handshake on
each of them.  A listener yields a result for every connection attempt, also after one that has
failed; the loop in `handle_incoming` ends with the first failure, and the listener with it.  So a
peer that fails to negotiate keeps all later peers out (`listener_stopped`), and the switch serves
all the peers it could serve only if no peer fails before one that succeeds
(`listener_survives_iff`).
-/

namespace XStack

open X509

/-- `TransportListener::into_incoming`: the results of `accept` for the attempts that have
arrived. -/
def intoIncoming {A : Type} (accept : A → Except Error P2pConn) (attempts : List A) :
    List (Except Error P2pConn) := attempts.map accept

/-- `Switch::handle_incoming`: the connections that `Switch::handshake` is started on, and the error
with which the loop has ended. -/
def handleIncoming (incoming : List (Except Error P2pConn)) : List P2pConn × Option Error :=
  tryForEach incoming

/-- The listener survives: from a finite or infinite sequence of attempts, the connections that
`Switch::handshake` is started on are exactly those that were accepted. -/
def Survives {A : Type} (accept : A → Except Error P2pConn) (attempts : ℕ → Option A) : Prop :=
  ∀ n, (handleIncoming (intoIncoming accept (firstN attempts n))).1 =
    oks (intoIncoming accept (firstN attempts n))

/-- No attempt succeeds after one that has failed. -/
def NoneAfterFailure {A : Type} (accept : A → Except Error P2pConn) (attempts : ℕ → Option A) :
    Prop :=
  ∀ i j a b, i < j → attempts i = some a → attempts j = some b → (∃ e, accept a = .error e) →
    ∃ e, accept b = .error e

/-- **When a listener survives.**  For both listeners, every connection that is accepted is handed
to `Switch::handshake` if and only if none is accepted after an attempt has failed. -/
theorem listener_survives_iff [Libp2p] [X509Crypto] [Boring] :
    (∀ (l : TlsListener) attempts,
      Survives l.accept attempts ↔ NoneAfterFailure l.accept attempts) ∧
    ∀ (l : QuicP2pListener) attempts,
      Survives l.accept attempts ↔ NoneAfterFailure l.accept attempts :=
  ⟨fun _ _ => tryForEach_eq_oks_iff, fun _ _ => tryForEach_eq_oks_iff⟩

section Sample

attribute [local instance] Libp2p.ed25519 symbolic Boring.accepting

/-- A peer that does not speak TLS. -/
def plainPeer : RawStream where
  id := "plain"
  selectProto _ := .error (.negotiationError "failed")
  tlsHandshake _ := .ok ()
  peerCertificate := none

/-- A peer that presents the given certificate. -/
def tlsPeer (cert : Certificate) : RawStream where
  id := "b"
  selectProto _ := .ok ()
  tlsHandshake _ := .ok ()
  peerCertificate := some cert

/-- The address the peers connect from. -/
def loopbackTls : Multiaddr := [.ip4 0x7f000001, .tcp 4001, .tls]

theorem accept_tlsPeer {cert : Certificate} (h : verify cert 0 = .ok keyB) :
    (⟨keyStoreOf keyA⟩ : TlsListener).accept
      ⟨.ok (some (tlsPeer cert, loopbackTls)), freshAt 0, 0⟩ = .ok ⟨"b", keyB, loopbackTls⟩ := by
  have hacceptor : ∃ acceptor, createSslAcceptor (keyStoreOf keyA) (freshAt 0) = .ok acceptor :=
    ⟨_, rfl⟩
  obtain ⟨acceptor, hacceptor⟩ := hacceptor
  simp [TlsListener.accept, hacceptor, TlsConn.accept, RawStream.sslAccept, verifyCallback, tlsPeer,
    okOr, h, bind, Except.bind, pure, Except.pure]

/-- A peer that does not speak TLS keeps out the node with key `keyB`, which connects after it. -/
theorem listener_stopped :
    ¬ ∀ (l : TlsListener) attempts, Survives l.accept attempts := by
  obtain ⟨cert, -, -, hverify⟩ := exists_certificate
  intro hall
  have hsurvives := hall ⟨keyStoreOf keyA⟩
    (fun
      | 0 => some ⟨.ok (some (plainPeer, loopbackTls)), freshAt 0, 0⟩
      | 1 => some ⟨.ok (some (tlsPeer cert, loopbackTls)), freshAt 0, 0⟩
      | _ => none) 2
  have hok := accept_tlsPeer hverify
  have herr : ∃ e, (⟨keyStoreOf keyA⟩ : TlsListener).accept
      ⟨.ok (some (plainPeer, loopbackTls)), freshAt 0, 0⟩ = .error e := ⟨_, rfl⟩
  obtain ⟨e, herr⟩ := herr
  have hlen := congrArg List.length hsurvives
  simp only [firstN, intoIncoming, handleIncoming, List.range_succ, List.range_zero,
    List.nil_append, List.singleton_append, List.filterMap_cons, List.filterMap_nil, List.map_cons,
    List.map_nil, herr, hok, tryForEach, oks, List.length_nil] at hlen
  exact Nat.zero_ne_one hlen

end Sample

end XStack
