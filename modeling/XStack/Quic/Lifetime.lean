import XStack.Lts.Basic
import XStack.Quic.Basic
import XStack.X509.Symbolic

/-!
# The certificate of a QUIC listener

A generated certificate is valid for five seconds, which is enough for the handshake it is made for.
A QUIC listener uses the certificate that it was bound with in all its handshakes, and presents an
expired one from five seconds after the bind on.

`Validity::from_now` is third-party code.  Here it is assumed to give exactly the time of the bind
and five seconds more, as it does at a full second; otherwise the encoding drops the fractions.

* `quicLts` : a bound listener as time goes by.
* `presents_valid_iff` : in no run, and at no time, does the listener present a certificate that
  passes the validity check, except in the first five seconds.
* `presents_expired` : a run in which the check fails.
-/

namespace XStack

open X509

/-- A bound listener, and the time. -/
structure QuicListening where
  listener : QuicP2pListener
  now : SystemTime

/-- What happens to a listener. -/
inductive QuicEvent where
  /-- Time goes by. -/
  | elapse (duration : Duration)
  /-- A peer connects, and is presented a certificate. -/
  | handshake (attempt : QuicAttempt) (presented : Certificate)

/-- The steps of a listener that accepts. -/
inductive QuicStep : QuicListening → QuicEvent → QuicListening → Prop
  | elapse (s : QuicListening) (duration) :
      QuicStep s (.elapse duration) { s with now := s.now + duration }
  | handshake (s : QuicListening) (conn) :
      QuicStep s (.handshake ⟨conn, s.now⟩ s.listener.presents) s

/-- The runs of a listener after `QuicTransport::bind`. -/
def quicLts [X509Crypto] [Boring] [FuturesQuic] (transport : QuicTransport) (keystore : KeyStore)
    (fresh : Fresh) (laddr : Multiaddr) : Lts QuicListening QuicEvent where
  init s := transport.bind keystore fresh laddr = .ok s.listener ∧ s.now = fresh.now
  step := QuicStep

section

variable [X509Crypto] [Boring] [FuturesQuic] {transport : QuicTransport} {keystore : KeyStore}
  {fresh : Fresh} {laddr : Multiaddr}

theorem QuicTransport.bind_presents {l : QuicP2pListener}
    (h : transport.bind keystore fresh laddr = .ok l) :
    l.presents.tbsCertificate.validity = X509Crypto.fromNow fresh.now (.new 5 0) := by
  obtain ⟨config, hconfig, h⟩ := bind_eq_ok.1 h
  obtain ⟨laddrs, -, h⟩ := bind_eq_ok.1 h
  obtain ⟨local', -, h⟩ := bind_eq_ok.1 h
  obtain ⟨⟨cert, pk⟩, hgen, hconfig⟩ := bind_eq_ok.1 hconfig
  obtain ⟨-, -, hconfig⟩ := bind_eq_ok.1 hconfig
  cases h
  cases hconfig
  exact generate_validity (mapError_ok_iff.1 hgen)

/-- What holds in every run: time does not run backwards, and the certificate stays the same. -/
theorem quicLts_inv {h : List QuicEvent} {s : QuicListening}
    (hr : (quicLts transport keystore fresh laddr).Run h s) :
    fresh.now ≤ s.now ∧
    s.listener.presents.tbsCertificate.validity = X509Crypto.fromNow fresh.now (.new 5 0) := by
  refine hr.invariant (I := fun _ s => fresh.now ≤ s.now ∧
    s.listener.presents.tbsCertificate.validity = X509Crypto.fromNow fresh.now (.new 5 0)) ?_ ?_
  · rintro s ⟨hbind, hnow⟩
    exact ⟨Nat.le_of_eq hnow.symm, QuicTransport.bind_presents hbind⟩
  · rintro h s event s' - ⟨hnow, hvalid⟩ hst
    cases hst with
    | elapse duration => exact ⟨Nat.le_trans hnow (Nat.le_add_right ..), hvalid⟩
    | handshake conn => exact ⟨hnow, hvalid⟩

/-- **When a QUIC listener presents a valid certificate**: in every handshake of every run, the
certificate passes the validity check at the time of the handshake if and only if the handshake
takes place at most five seconds after the bind. -/
theorem presents_valid_iff {h : List QuicEvent} {s : QuicListening}
    (hfrom : X509Crypto.fromNow fresh.now (.new 5 0) = ⟨fresh.now, fresh.now + Duration.new 5 0⟩)
    (hr : (quicLts transport keystore fresh laddr).Run h s) :
    ∀ attempt presented, .handshake attempt presented ∈ h →
      (validity presented attempt.now = .ok () ↔ attempt.now ≤ fresh.now + Duration.new 5 0) := by
  intro attempt presented hmem
  obtain ⟨pre, post, rfl⟩ := List.append_of_mem hmem
  obtain ⟨s₁, s₂, hpre, hst⟩ := hr.split
  obtain ⟨hnow, hvalid⟩ := quicLts_inv hpre
  cases hst with
  | handshake conn =>
    rw [validity_ok_iff, hvalid, hfrom]
    exact ⟨fun hok => hok.2, fun hok => ⟨hnow, hok⟩⟩

end

section Sample

attribute [local instance] symbolic

/-- A QUIC library that binds every address. -/
@[reducible] def FuturesQuic.binding : FuturesQuic := ⟨.ok⟩

attribute [local instance] Boring.accepting FuturesQuic.binding

/-- The address of the listener. -/
def loopbackQuic : Multiaddr := [.ip4 0x7f000001, .udp 4001, .quicV1]

/-- The node with key `keyA` binds at the time 0, and a peer connects some time later. -/
theorem run_loopback (duration : Duration) :
    ∃ s presented, (quicLts ⟨.new 5 0⟩ (keyStoreOf keyA) (freshAt 0) loopbackQuic).Run
      [.elapse duration, .handshake ⟨.error .timeout, 0 + duration⟩ presented] s ∧
      presented.tbsCertificate.validity = ⟨0, 5000000000⟩ := by
  have hbind : ∃ l, (QuicTransport.mk (.new 5 0)).bind (keyStoreOf keyA) (freshAt 0)
      loopbackQuic = .ok l := ⟨_, rfl⟩
  obtain ⟨l, hl⟩ := hbind
  have start : (quicLts ⟨.new 5 0⟩ (keyStoreOf keyA) (freshAt 0) loopbackQuic).Run [] ⟨l, 0⟩ :=
    .start ⟨hl, rfl⟩
  have later := start.snoc (QuicStep.elapse _ duration)
  exact ⟨_, _, later.snoc (QuicStep.handshake _ (.error .timeout)), QuicTransport.bind_presents hl⟩

theorem presents_valid_iff_loopback :
    ∃ presented, validity presented (0 + 1000000000) = .ok () := by
  obtain ⟨s, presented, hr, -⟩ := run_loopback 1000000000
  have hmem : QuicEvent.handshake ⟨.error .timeout, 0 + 1000000000⟩ presented ∈
      [QuicEvent.elapse 1000000000, .handshake ⟨.error .timeout, 0 + 1000000000⟩ presented] :=
    List.mem_cons_of_mem _ (List.mem_singleton_self _)
  exact ⟨presented, (presents_valid_iff rfl hr _ _ hmem).2 (by decide)⟩

/-- Six seconds after the bind the listener presents an expired certificate. -/
theorem presents_expired :
    X509Crypto.fromNow 0 (.new 5 0) = ⟨0, 0 + Duration.new 5 0⟩ ∧
    ¬ ∀ h s, (quicLts ⟨.new 5 0⟩ (keyStoreOf keyA) (freshAt 0) loopbackQuic).Run h s →
      ∀ attempt presented, .handshake attempt presented ∈ h →
        validity presented attempt.now = .ok () := by
  refine ⟨rfl, fun hall => ?_⟩
  obtain ⟨s, presented, hr, hvalid⟩ := run_loopback 6000000000
  have hok := hall _ _ hr _ _ (List.mem_cons_of_mem _ (List.mem_singleton_self _))
  rw [validity_ok_iff, hvalid] at hok
  exact absurd hok.2 (by decide)

end Sample

end XStack
