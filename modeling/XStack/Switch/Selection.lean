import XStack.Connector.Transports
import XStack.Switch.Basic

/-!
# The selection of a transport

`get_transport_by_address` takes the first registered transport whose `multiaddr_hint` accepts the
address.  The hints look at different parts of the address: TCP and QUIC at the second and third
component, `DnsAddr` at any component, and the relay transport at the encoding of what stands before
a trailing peer id.  So an address may be accepted by two of them, and then the one that has been
registered first gets it (`selected_by_order`).

The first reason are names: `/dns4/../tcp/..` is resolved by `DnsAddr`, but accepted by the TCP
transport too, which cannot dial it.  The second are relays that are given by a name.  The third is
that the encoding of a component which is not `p2p-circuit` may end with the same bytes; the port
41474 does.

## Main results

* `transport_unambiguous_iff` : the addresses that at most one transport accepts.
-/

namespace XStack

namespace TransportKind

/-- The transports of the repository. -/
def all : List TransportKind := [tcp, quic, dnsaddr, circuit]

theorem eq_of_exclusive {P : TransportKind → Prop} (hdirect : ¬ (P tcp ∧ P quic))
    (hname : ¬ (P dnsaddr ∧ (P tcp ∨ P quic))) (hrelay : ¬ (P dnsaddr ∧ P circuit))
    (hdial : ¬ ((P tcp ∨ P quic) ∧ P circuit)) (kind kind' : TransportKind) (h : P kind)
    (h' : P kind') : kind = kind' := by
  cases kind <;> cases kind' <;> first | rfl | (exfalso; tauto)

variable [MultiaddrBytes]

/-- The `multiaddr_hint` of each transport. -/
def multiaddrHint : TransportKind → Multiaddr → Bool
  | tcp => Multiaddr.isTcpTransport
  | quic => Multiaddr.isQuicTransport
  | dnsaddr => Multiaddr.isDnsaddrTransport
  | circuit => CircuitTransport.multiaddrHint

/-- The transport, as it is registered. -/
def transport (kind : TransportKind) : Transport := ⟨kind.multiaddrHint⟩

end TransportKind

/-- The default configuration, with these transports registered one after the other. -/
def registered [MultiaddrBytes] (order : List TransportKind) : SwitchOptions :=
  ⟨4194304, order.map TransportKind.transport⟩

namespace Multiaddr

/-- A component of the address is to be resolved. -/
def Named (addr : Multiaddr) : Prop := ∃ p ∈ addr, p.isName = true

/-- The address is not relayed, and its second component is `tcp`, or its second and third are `udp`
and `quic-v1`. -/
def Direct (addr : Multiaddr) : Prop :=
  .p2pCircuit ∉ addr ∧ ((∃ p port rest, addr = p :: .tcp port :: rest) ∨
    ∃ p port rest, addr = p :: .udp port :: .quicV1 :: rest)

/-- The address ends with a component whose encoding ends like the one of `p2p-circuit`, and a peer
id. -/
def Relayed [MultiaddrBytes] (addr : Multiaddr) : Prop :=
  ∃ hop p id, addr = hop ++ [p, .p2p id] ∧
    MultiaddrBytes.writeBytes .p2pCircuit <:+ MultiaddrBytes.writeBytes p

variable {addr : Multiaddr}

theorem direct_iff :
    addr.Direct ↔ addr.isTcpTransport = true ∨ addr.isQuicTransport = true := by
  rw [isTcpTransport_iff, isQuicTransport_iff, ← and_or_left, Direct]

theorem not_tcp_and_quic (htcp : addr.isTcpTransport = true) : addr.isQuicTransport = false := by
  rw [← Bool.not_eq_true, isQuicTransport_iff]
  obtain ⟨-, p, port, rest, rfl⟩ := isTcpTransport_iff.1 htcp
  rintro ⟨-, p', port', rest', h⟩
  cases h

end Multiaddr

/-- The first element with a property does not depend on the order if there is at most one. -/
theorem find?_eq_of_perm {α : Type*} {p : α → Bool} {l l' : List α} (h : l.Perm l')
    (hp : ∀ a b, p a = true → p b = true → a = b) : l.find? p = l'.find? p := by
  cases hfind : l.find? p with
  | none =>
    rw [List.find?_eq_none] at hfind
    exact (List.find?_eq_none.2 fun a ha => hfind a (h.mem_iff.2 ha)).symm
  | some a =>
    have hsome : (l'.find? p).isSome = true :=
      List.find?_isSome.2 ⟨a, h.mem_iff.1 (List.mem_of_find?_eq_some hfind),
        List.find?_some hfind⟩
    obtain ⟨b, hb⟩ := Option.isSome_iff_exists.1 hsome
    rw [hb, hp a b (List.find?_some hfind) (List.find?_some hb)]

section

variable [MultiaddrBytes] {addr : Multiaddr}

theorem registered_getTransportByAddress (order : List TransportKind) :
    (registered order).getTransportByAddress addr =
      (order.find? fun kind => kind.multiaddrHint addr).map TransportKind.transport := by
  rw [SwitchOptions.getTransportByAddress, registered, List.find?_map]
  rfl

/-- **Which addresses are unambiguous.**  At most one of the transports accepts an address, and the
one that is selected does not depend on the order of their registration, if and only if the address
is at most one of: named, direct, and relayed. -/
theorem transport_unambiguous_iff [MultiaddrBytes.Lawful] (addr : Multiaddr) :
    ((∀ kind kind' : TransportKind, kind.multiaddrHint addr = true →
        kind'.multiaddrHint addr = true → kind = kind') ∧
      ∀ order order' : List TransportKind, order.Perm TransportKind.all →
        order'.Perm TransportKind.all →
        (registered order).getTransportByAddress addr =
          (registered order').getTransportByAddress addr) ↔
    ¬ (addr.Named ∧ addr.Direct) ∧ ¬ (addr.Named ∧ addr.Relayed) ∧
      ¬ (addr.Direct ∧ addr.Relayed) := by
  have hnamed : addr.Named ↔ TransportKind.dnsaddr.multiaddrHint addr = true :=
    Multiaddr.isDnsaddrTransport_iff.symm
  have hrelayed : addr.Relayed ↔ TransportKind.circuit.multiaddrHint addr = true :=
    CircuitTransport.multiaddrHint_iff.symm
  have hdirect : addr.Direct ↔ TransportKind.tcp.multiaddrHint addr = true ∨
      TransportKind.quic.multiaddrHint addr = true := Multiaddr.direct_iff
  rw [hnamed, hrelayed, hdirect]
  constructor
  · rintro ⟨hunique, -⟩
    refine ⟨?_, ?_, ?_⟩
    · rintro ⟨hname, htcp | hquic⟩
      · cases hunique _ _ hname htcp
      · cases hunique _ _ hname hquic
    · rintro ⟨hname, hcircuit⟩
      cases hunique _ _ hname hcircuit
    · rintro ⟨htcp | hquic, hcircuit⟩
      · cases hunique _ _ htcp hcircuit
      · cases hunique _ _ hquic hcircuit
  · rintro ⟨hname, hrelay, hdial⟩
    -- a direct address is so for one of TCP and QUIC only
    have hexclusive : ¬ (TransportKind.tcp.multiaddrHint addr = true ∧
        TransportKind.quic.multiaddrHint addr = true) := by
      rintro ⟨htcp, hquic⟩
      exact absurd hquic (by rw [show TransportKind.quic.multiaddrHint addr = false from
        Multiaddr.not_tcp_and_quic htcp]; decide)
    have hunique := TransportKind.eq_of_exclusive
      (P := fun kind => kind.multiaddrHint addr = true) hexclusive hname hrelay hdial
    refine ⟨hunique, fun order order' horder horder' => ?_⟩
    rw [registered_getTransportByAddress, registered_getTransportByAddress,
      find?_eq_of_perm (horder.trans horder'.symm) hunique]

end

section Sample

attribute [local instance] MultiaddrBytes.multiformats MultiaddrBytes.multiformats_lawful

/-- An address that is given by a name. -/
def namedTcp : Multiaddr := [.dns4 "node.example", .tcp 4001]

theorem transport_unambiguous_iff_loopback :
    (∀ kind kind' : TransportKind, kind.multiaddrHint [.ip4 0x7f000001, .tcp 4001] = true →
      kind'.multiaddrHint [.ip4 0x7f000001, .tcp 4001] = true → kind = kind') ∧
    ∀ order order' : List TransportKind, order.Perm TransportKind.all →
      order'.Perm TransportKind.all →
        (registered order).getTransportByAddress [.ip4 0x7f000001, .tcp 4001] =
          (registered order').getTransportByAddress [.ip4 0x7f000001, .tcp 4001] := by
  have hnamed : ¬ Multiaddr.Named [.ip4 0x7f000001, .tcp 4001] := by
    simp [Multiaddr.Named, Protocol.isName]
  have hrelayed : ¬ Multiaddr.Relayed [.ip4 0x7f000001, .tcp 4001] := by
    rintro ⟨hop, p, id, haddr, -⟩
    have hlast := congrArg List.getLast? haddr
    simp at hlast
  exact (transport_unambiguous_iff _).2
    ⟨fun h => hnamed h.1, fun h => hnamed h.1, fun h => hrelayed h.2⟩

/-- An address with a name is accepted by the TCP transport and by `DnsAddr`, and the one that has
been registered first gets it. -/
theorem selected_by_order :
    ¬ ∀ addr : Multiaddr,
      (∀ kind kind' : TransportKind, kind.multiaddrHint addr = true →
        kind'.multiaddrHint addr = true → kind = kind') ∧
      ∀ order order' : List TransportKind, order.Perm TransportKind.all →
        order'.Perm TransportKind.all →
          (registered order).getTransportByAddress addr =
            (registered order').getTransportByAddress addr := by
  intro hall
  have hsame : TransportKind.tcp = .dnsaddr := (hall namedTcp).1 _ _ (by decide) (by decide)
  cases hsame

-- the bytes of the port 41474 are those of `p2p-circuit`
example :
    TransportKind.tcp.multiaddrHint [.ip4 0x01020304, .tcp 41474, .p2p ⟨[0x00, 0x00]⟩] = true ∧
    TransportKind.circuit.multiaddrHint
      [.ip4 0x01020304, .tcp 41474, .p2p ⟨[0x00, 0x00]⟩] = true := by decide

end Sample

end XStack
