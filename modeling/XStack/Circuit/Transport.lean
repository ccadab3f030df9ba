import XStack.Multiaddr
import XStack.Tls.Basic

/-!
# The relay transport

The address of a relayed peer is the address of the relay, `/p2p-circuit`, and the id of the peer.
`CircuitTransport::connect` opens a stream to the relay, has it connected to the peer, and upgrades
it with TLS.  The connection keeps the whole address.

`CircuitTransport::multiaddr_hint` recognises these addresses by their encoding.  It looks at the
bytes before the trailing peer id, where `connect` looks at the component, and the bytes of
`p2p-circuit` may also be the end of another component, such as a port or an IP address
(`hint_of_port`).

## Main results

* `CircuitTransport.hint_agrees_iff` : the addresses for which the hint and `connect` agree.
-/

namespace XStack

open X509

namespace CircuitTransport

/-- `Error::ConnectAddr`. -/
def connectAddr : Error := .ioError "Invalid multiaddr for circuit connect function"

/-- The address of the relay, and the id of the peer behind it. -/
def splitAddr (raddr : Multiaddr) : Except Error (Multiaddr × PeerId) :=
  match raddr.reverse with
  | .p2p id :: .p2pCircuit :: hop => .ok (hop.reverse, id)
  | _ => .error connectAddr

/-- `CircuitTransport::connect`; `switchConnect` opens a stream for the hop protocol to the relay,
and `hopConnect` is what comes of `circuit_v2_hop_connect` on it. -/
def connect [Libp2p] [X509Crypto] [Boring] (switchConnect : Multiaddr → Except Error RawStream)
    (hopConnect : RawStream → PeerId → Except Error Unit) (keystore : KeyStore) (fresh : Fresh)
    (raddr : Multiaddr) (now : SystemTime) : Except Error P2pConn := do
  let peerAddr := raddr
  let (raddr, peerId) ← splitAddr raddr
  let stream ← switchConnect raddr
  hopConnect stream peerId
  TlsConn.connect keystore fresh stream peerAddr now

/-- `CircuitTransport::multiaddr_hint`. -/
def multiaddrHint [MultiaddrBytes] (addr : Multiaddr) : Bool :=
  match addr.getLast? with
  | some (.p2p _) => Multiaddr.endsWith addr.dropLast [.p2pCircuit]
  | _ => false

theorem multiaddrHint_iff [MultiaddrBytes] [MultiaddrBytes.Lawful] {addr : Multiaddr} :
    multiaddrHint addr = true ↔ ∃ hop p id, addr = hop ++ [p, .p2p id] ∧
      MultiaddrBytes.writeBytes .p2pCircuit <:+ MultiaddrBytes.writeBytes p := by
  rcases addr.eq_nil_or_concat' with rfl | ⟨front, last, rfl⟩
  · simp [multiaddrHint]
  · simp only [multiaddrHint, List.getLast?_concat, List.dropLast_concat]
    have hsplit : ∀ {hop p id}, front ++ [last] = hop ++ [p, .p2p id] →
        front = hop ++ [p] ∧ last = .p2p id := by
      intro hop p id haddr
      have haddr' : front ++ [last] = (hop ++ [p]) ++ [.p2p id] := by simpa using haddr
      exact ⟨List.append_inj_left' haddr' rfl, by simpa using List.append_inj_right' haddr' rfl⟩
    split
    · next id hlast =>
      obtain rfl := Option.some.inj hlast
      rw [Multiaddr.endsWith_p2pCircuit_iff]
      constructor
      · rintro ⟨hop, p, rfl, h⟩
        exact ⟨hop, p, id, by simp, h⟩
      · rintro ⟨hop, p, id', haddr, h⟩
        exact ⟨hop, p, (hsplit haddr).1, h⟩
    · next hlast =>
      refine ⟨fun h => absurd h (by decide), ?_⟩
      rintro ⟨hop, p, id, haddr, -⟩
      exact absurd (congrArg some (hsplit haddr).2) (hlast id)

theorem splitAddr_ok_iff {raddr hop : Multiaddr} {id : PeerId} :
    splitAddr raddr = .ok (hop, id) ↔ raddr = hop ++ [.p2pCircuit, .p2p id] := by
  have hreverse : raddr = hop ++ [.p2pCircuit, .p2p id] ↔
      raddr.reverse = .p2p id :: .p2pCircuit :: hop.reverse := by
    rw [← List.reverse_inj]
    simp
  rw [hreverse, splitAddr]
  split
  · next id' hop' h =>
    rw [h]
    simp [List.reverse_eq_iff, and_comm]
  · next h =>
    refine iff_of_false (fun hok => ?_) fun heq => h _ _ heq
    cases hok

/-- A component that is not `p2p-circuit`, but has an encoding that ends with its bytes, stands
before a trailing peer id. -/
def Lookalike [MultiaddrBytes] (addr : Multiaddr) : Prop :=
  ∃ hop p id, addr = hop ++ [p, .p2p id] ∧ p ≠ .p2pCircuit ∧
    MultiaddrBytes.writeBytes .p2pCircuit <:+ MultiaddrBytes.writeBytes p

/-- What comes before the last two components, and these two, are determined by the address. -/
theorem eq_of_append_pair {hop hop' : Multiaddr} {p p' q q' : Protocol}
    (h : hop ++ [p, q] = hop' ++ [p', q']) : hop = hop' ∧ p = p' ∧ q = q' := by
  obtain ⟨hhop, hpair⟩ := List.append_inj' h rfl
  cases hpair
  exact ⟨hhop, rfl, rfl⟩

/-- `connect` cannot take a lookalike apart, whatever the relay is like. -/
theorem connect_lookalike [MultiaddrBytes] [Libp2p] [X509Crypto] [Boring] {raddr : Multiaddr}
    (h : Lookalike raddr) (switchConnect : Multiaddr → Except Error RawStream)
    (hopConnect : RawStream → PeerId → Except Error Unit) (keystore : KeyStore) (fresh : Fresh)
    (now : SystemTime) :
    connect switchConnect hopConnect keystore fresh raddr now = .error connectAddr := by
  obtain ⟨hop, p, id, rfl, hne, -⟩ := h
  have hsplit : splitAddr (hop ++ [p, .p2p id]) = .error connectAddr := by
    have hreverse : (hop ++ [p, .p2p id]).reverse = .p2p id :: p :: hop.reverse := by simp
    rw [splitAddr, hreverse]
    split
    · next heq =>
      cases heq
      exact absurd rfl hne
    · rfl
  rw [connect, hsplit]
  rfl

/-- **When the hint and `connect` agree**: the relay transport recognises the addresses that end
with `/p2p-circuit` and a peer id, and `connect` takes those that it recognises apart, if and only
if the address is no lookalike. -/
theorem hint_agrees_iff [MultiaddrBytes] [MultiaddrBytes.Lawful] (addr : Multiaddr) :
    ((multiaddrHint addr = true ↔ ∃ hop id, addr = hop ++ [.p2pCircuit, .p2p id]) ∧
      (multiaddrHint addr = true → ∃ hop id, splitAddr addr = .ok (hop, id) ∧
        hop ++ [.p2pCircuit, .p2p id] = addr)) ↔ ¬ Lookalike addr := by
  rw [multiaddrHint_iff]
  constructor
  · rintro ⟨hiff, -⟩ ⟨hop, p, id, haddr, hne, hbytes⟩
    obtain ⟨hop', id', haddr'⟩ := hiff.1 ⟨hop, p, id, haddr, hbytes⟩
    exact hne (eq_of_append_pair (haddr.symm.trans haddr')).2.1
  · intro hlook
    have hrelayed : (∃ hop p id, addr = hop ++ [p, .p2p id] ∧
        MultiaddrBytes.writeBytes .p2pCircuit <:+ MultiaddrBytes.writeBytes p) →
        ∃ hop id, addr = hop ++ [.p2pCircuit, .p2p id] := by
      rintro ⟨hop, p, id, haddr, hbytes⟩
      have hp : p = .p2pCircuit := by
        by_contra hne
        exact hlook ⟨hop, p, id, haddr, hne, hbytes⟩
      exact ⟨hop, id, hp ▸ haddr⟩
    refine ⟨⟨hrelayed, ?_⟩, fun h => ?_⟩
    · rintro ⟨hop, id, haddr⟩
      exact ⟨hop, .p2pCircuit, id, haddr, List.suffix_rfl⟩
    · obtain ⟨hop, id, haddr⟩ := hrelayed h
      exact ⟨hop, id, splitAddr_ok_iff.2 haddr, haddr.symm⟩

end CircuitTransport

section Sample

attribute [local instance] MultiaddrBytes.multiformats MultiaddrBytes.multiformats_lawful

theorem CircuitTransport.hint_agrees_iff_relayed :
    CircuitTransport.multiaddrHint
      [.ip4 0x7f000001, .tcp 4001, .p2pCircuit, .p2p ⟨[0x00, 0x00]⟩] = true := by
  have hlook : ¬ CircuitTransport.Lookalike
      [.ip4 0x7f000001, .tcp 4001, .p2pCircuit, .p2p ⟨[0x00, 0x00]⟩] := by
    rintro ⟨hop, p, id, haddr, hne, -⟩
    have hpair : ([.ip4 0x7f000001, .tcp 4001] : Multiaddr) ++ [.p2pCircuit, .p2p ⟨[0x00, 0x00]⟩] =
        hop ++ [p, .p2p id] := haddr
    exact hne (CircuitTransport.eq_of_append_pair hpair).2.1.symm
  exact ((CircuitTransport.hint_agrees_iff _).2 hlook).1.2
    ⟨[.ip4 0x7f000001, .tcp 4001], ⟨[0x00, 0x00]⟩, rfl⟩

/-- The relay transport recognises an address with the port 41474, and does not connect to it. -/
theorem CircuitTransport.hint_of_port :
    ¬ ∀ addr : Multiaddr,
      (CircuitTransport.multiaddrHint addr = true ↔
        ∃ hop id, addr = hop ++ [.p2pCircuit, .p2p id]) ∧
      (CircuitTransport.multiaddrHint addr = true →
        ∃ hop id, CircuitTransport.splitAddr addr = .ok (hop, id) ∧
          hop ++ [.p2pCircuit, .p2p id] = addr) := by
  intro hall
  obtain ⟨hop, id, haddr⟩ :=
    (hall [.ip4 0x7f000001, .tcp 41474, .p2p ⟨[0x00, 0x00]⟩]).1.1 (by decide)
  have hpair : ([.ip4 0x7f000001] : Multiaddr) ++ [.tcp 41474, .p2p ⟨[0x00, 0x00]⟩] =
      hop ++ [.p2pCircuit, .p2p id] := haddr
  cases (CircuitTransport.eq_of_append_pair hpair).2.1

end Sample

end XStack
