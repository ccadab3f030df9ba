import XStack.Discovery.Basic
import XStack.Ed25519
import XStack.Lts.Basic
import XStack.Switch.Protocols

/-!
# What discovery does to identified peers

An identify message tells the protocols of a peer, and `identity_push` records them in the peer book
with the time.  A discovery inserts entries without protocols and without a time, and an insertion
replaces the whole entry.  So the first discovery that names an identified peer makes the book
forget that it has ever been connected, and `choose_peers` no longer finds it (`discovery_erases`).

## Main definitions

* `bookLts` : the peer book, with the discoveries that are running.
* `Remembers` : the book has what the identify message of the peer said.

## Main results

* `discovery_keeps_identified_iff` : the book remembers an identified peer as long as no discovery
  inserts an entry for it.
* `insert_mem_named` : such a discovery names the peer.
-/

namespace XStack

/-- A switch, and the discoveries that are running. -/
structure BookState where
  /-- The switch. -/
  switch : SwitchState
  /-- For every discovery, the entries that it has still to insert. -/
  discovering : List (List PeerInfo)

/-- What happens to the peer book. -/
inductive BookOp where
  /-- `identity_push` records an identify message. -/
  | identify (peerId : PeerId) (protos : List String) (now : SystemTime)
  /-- A discovery starts. -/
  | discover (d : Discovery)
  /-- A discovery inserts its next entry. -/
  | insert (info : PeerInfo)
  | remove (peerId : PeerId)

section

variable [Libp2p] [PeerText]

/-- The steps that change the peer book. -/
inductive BookStep (maxPacketSize : ℕ) : BookState → BookOp → BookState → Prop
  | identify (s : BookState) {received} (m : Identified maxPacketSize received) (now) :
      BookStep maxPacketSize s (.identify m.pubkey.toPeerId m.identity.protocols now)
        { s with switch := m.record now s.switch }
  | discover (s : BookState) (d : Discovery) (order) :
      BookStep maxPacketSize s (.discover d)
        { s with discovering := d.infos order :: s.discovering }
  | insert {s : BookState} (before info rest after) :
      s.discovering = before ++ (info :: rest) :: after →
      BookStep maxPacketSize s (.insert info)
        ⟨{ s.switch with peerBook := (s.switch.peerBook.insert info).2 }, before ++ rest :: after⟩
  | remove (s : BookState) (peerId) :
      BookStep maxPacketSize s (.remove peerId)
        { s with switch := { s.switch with peerBook := (s.switch.peerBook.remove peerId).2 } }

/-- The runs of a peer book. -/
def bookLts (maxPacketSize : ℕ) : Lts BookState BookOp where
  init s := s.switch.peerBook = .default ∧ s.discovering = []
  step := BookStep maxPacketSize

end

/-- The book has the protocols and the time that were recorded for the peer, and `choose_peers` may
choose the peer for each of its protocols. -/
structure Remembers (book : RawMemoryPeerBook) (peerId : PeerId) (protos : List String)
    (now : SystemTime) : Prop where
  entry : ∃ info, book.get peerId = some info ∧ info.protos = protos ∧ info.appear = some now
  candidate : ∀ proto ∈ protos, ∀ maximun > 0, ∃ rng, peerId ∈ book.choosePeers rng proto maximun

/-- Every entry is stored under the id of its peer. -/
def RawMemoryPeerBook.Keyed (book : RawMemoryPeerBook) : Prop :=
  ∀ peerId info, book.get peerId = some info → info.id = peerId

/-- A discovery that has not finished inserts entries without protocols and without a time. -/
def BookState.Heard (s : BookState) : Prop :=
  ∀ infos ∈ s.discovering, ∀ info ∈ infos, info.protos = [] ∧ info.appear = none

/-! ### The entries of discoveries -/

section

variable [Libp2p] [PeerText]

theorem kadFindNode_discovered {closerPeers : List KadPeer} {closestK : List PeerInfo}
    (h : kadFindNode closerPeers = .ok closestK) :
    ∀ info ∈ closestK, info.protos = [] ∧ info.appear = none := by
  intro info hmem
  obtain ⟨peer, -, hinfo⟩ := exists_of_mem_mapM h hmem
  obtain ⟨addrs, -, hinfo⟩ := bind_eq_ok.1 hinfo
  obtain ⟨id, -, hinfo⟩ := bind_eq_ok.1 hinfo
  cases hinfo
  exact ⟨rfl, rfl⟩

omit [Libp2p] [PeerText] in
theorem collected_discovered {order : Shuffle (PeerId × List Multiaddr)}
    {peerAddrs : HashMap PeerId (List Multiaddr)} :
    ∀ info ∈ collected order peerAddrs, info.protos = [] ∧ info.appear = none := by
  intro info hmem
  obtain ⟨e, -, rfl⟩ := List.mem_map.1 hmem
  exact ⟨rfl, rfl⟩

/-- **The entries of a discovery are blank**: they have neither protocols nor a time. -/
theorem infos_discovered (order : Shuffle (PeerId × List Multiaddr)) (d : Discovery) :
    ∀ info ∈ d.infos order, info.protos = [] ∧ info.appear = none := by
  cases d with
  | findNode target peerId answer =>
    simp only [Discovery.infos]
    split
    · next routing closestK hroute =>
      unfold FindNode.route at hroute
      split_ifs at hroute with htarget
      · cases hroute
        simp
      · obtain ⟨closerPeers, -, hroute⟩ := bind_eq_ok.1 hroute
        obtain ⟨closestK', hfind, hroute⟩ := bind_eq_ok.1 hroute
        cases hroute
        exact kadFindNode_discovered hfind
    · simp
  | response additionals =>
    intro info hmem
    rw [Discovery.infos, handleResponse_fst] at hmem
    obtain ⟨txt, -, hmem⟩ := List.mem_flatMap.1 hmem
    exact collected_discovered info hmem
  | seeded seeds =>
    simp only [Discovery.infos, withSeeds]
    cases seedPeers ∅ seeds with
    | error err => simp [Except.map]
    | ok peerAddrs => exact collected_discovered

variable {maxPacketSize : ℕ} {s s' : BookState} {op : BookOp}

/-! ### The invariants of a run -/

/-- What a step does to the entry of a peer. -/
theorem BookStep.get (hst : BookStep maxPacketSize s op s') (P : PeerId) :
    ((∀ info, op = .insert info → info.id ≠ P) ∧
      s'.switch.peerBook.get P = s.switch.peerBook.get P) ∨
    (∃ protos now, op = .identify P protos now ∧ ∃ raddrs,
      s'.switch.peerBook.get P = some ⟨P, raddrs, protos, some now, none⟩) ∨
    (∃ info, op = .insert info ∧ info.id = P ∧
      s'.switch.peerBook.get P = some { info with disappear := none }) ∨
    op = .remove P ∧ s'.switch.peerBook.get P = none := by
  cases hst with
  | identify m now =>
    simp only [Identified.record, RawMemoryPeerBook.get_insert]
    by_cases hp : P = m.pubkey.toPeerId
    · subst hp
      exact .inr (.inl ⟨_, now, rfl, m.raddrs, by simp⟩)
    · exact .inl ⟨by simp, by simp [hp]⟩
  | discover => exact .inl ⟨by simp, rfl⟩
  | insert before info rest after =>
    simp only [RawMemoryPeerBook.get_insert]
    by_cases hp : P = info.id
    · exact .inr (.inr (.inl ⟨info, rfl, hp.symm, by simp [hp]⟩))
    · refine .inl ⟨fun info' he => ?_, by simp [hp]⟩
      cases he
      exact Ne.symm hp
  | remove peerId =>
    simp only [RawMemoryPeerBook.get_remove]
    by_cases hp : P = peerId
    · exact .inr (.inr (.inr ⟨by rw [hp], by simp [hp]⟩))
    · exact .inl ⟨by simp, by simp [hp]⟩

theorem BookStep.keyed (hk : s.switch.peerBook.Keyed) (hst : BookStep maxPacketSize s op s') :
    s'.switch.peerBook.Keyed := by
  intro P info hget
  rcases hst.get P with ⟨-, he⟩ | ⟨protos, now, -, raddrs, he⟩ | ⟨info', -, hid, he⟩ | ⟨-, he⟩ <;>
    rw [he] at hget
  · exact hk P info hget
  · cases hget
    rfl
  · cases hget
    exact hid
  · cases hget

theorem BookStep.heard (hh : s.Heard) (hst : BookStep maxPacketSize s op s') : s'.Heard := by
  cases hst with
  | identify | remove => exact hh
  | discover d order =>
    intro infos hmem
    rcases List.mem_cons.1 hmem with rfl | hmem
    · exact infos_discovered order d
    · exact hh infos hmem
  | insert before info rest after he =>
    intro infos hmem info' hmem'
    rcases List.mem_append.1 hmem with hmem | hmem
    · exact hh infos (by rw [he]; exact List.mem_append_left _ hmem) info' hmem'
    · rcases List.mem_cons.1 hmem with rfl | hmem
      · exact hh (info :: infos) (by rw [he]; simp) info' (List.mem_cons_of_mem _ hmem')
      · exact hh infos (by rw [he]; simp [hmem]) info' hmem'

theorem bookLts_inv {h : List BookOp} (hr : (bookLts maxPacketSize).Run h s) :
    s.switch.peerBook.Keyed ∧ s.Heard := by
  refine hr.invariant (I := fun _ s => s.switch.peerBook.Keyed ∧ s.Heard) ?_ ?_
  · rintro s ⟨hbook, hdiscovering⟩
    refine ⟨fun peerId info hget => ?_, fun infos hmem => ?_⟩
    · rw [hbook] at hget
      simp [RawMemoryPeerBook.get, RawMemoryPeerBook.default] at hget
    · rw [hdiscovering] at hmem
      cases hmem
  · rintro h s op s' - ⟨hkeyed, hheard⟩ hst
    exact ⟨hst.keyed hkeyed, hst.heard hheard⟩

theorem insert_mem_named {h : List BookOp} (hr : (bookLts maxPacketSize).Run h s) {info : PeerInfo}
    (hmem : .insert info ∈ h) : ∃ d, .discover d ∈ h ∧ d.Names info.id := by
  suffices hinv :
      (∀ infos ∈ s.discovering, ∀ info ∈ infos, ∃ d, .discover d ∈ h ∧ d.Names info.id) ∧
      ∀ info, .insert info ∈ h → ∃ d, .discover d ∈ h ∧ d.Names info.id from hinv.2 info hmem
  clear hmem info
  induction hr with
  | start hi =>
    refine ⟨fun infos hmem => ?_, by simp⟩
    rw [hi.2] at hmem
    cases hmem
  | @snoc h s s' op _ hst ih =>
    -- what was named stays named
    have hold : ∀ P : PeerId, (∃ d, .discover d ∈ h ∧ d.Names P) →
        ∃ d, .discover d ∈ h ++ [op] ∧ d.Names P := fun P ⟨d, hd, hn⟩ =>
      ⟨d, List.mem_append_left _ hd, hn⟩
    refine ⟨fun infos hmem info hi => ?_, fun info hmem => ?_⟩
    · cases hst with
      | identify | remove => exact hold _ (ih.1 infos hmem info hi)
      | discover d order =>
        rcases List.mem_cons.1 hmem with rfl | hmem
        · exact ⟨d, by simp, exists_mem_infos_iff.1 ⟨info, hi, rfl⟩⟩
        · exact hold _ (ih.1 infos hmem info hi)
      | insert before info' rest after he =>
        rcases List.mem_append.1 hmem with hmem | hmem
        · exact hold _ (ih.1 infos (by rw [he]; exact List.mem_append_left _ hmem) info hi)
        · rcases List.mem_cons.1 hmem with rfl | hmem
          · exact hold _ (ih.1 (info' :: infos) (by rw [he]; simp) info (List.mem_cons_of_mem _ hi))
          · exact hold _ (ih.1 infos (by rw [he]; simp [hmem]) info hi)
    · rcases List.mem_append.1 hmem with hmem | hmem
      · exact hold _ (ih.2 info hmem)
      · rw [List.mem_singleton] at hmem
        subst hmem
        cases hst with
        | insert before info rest after he =>
          exact hold _ (ih.1 (info :: rest) (by rw [he]; simp) info List.mem_cons_self)

/-- The entry of a peer after its identify message has been recorded: it is what was recorded, until
a discovery replaces it by a blank one. -/
theorem get_after_identify {pre post : List BookOp} {P : PeerId} {protos : List String}
    {now : SystemTime}
    (hr : (bookLts maxPacketSize).Run (pre ++ .identify P protos now :: post) s)
    (hpost : ∀ op ∈ post, op ≠ .remove P ∧ ∀ protos now, op ≠ .identify P protos now) :
    ((∀ info, .insert info ∈ post → info.id ≠ P) ∧ ∃ info, s.switch.peerBook.get P = some info ∧
      info.protos = protos ∧ info.appear = some now) ∨
    (∃ info, .insert info ∈ post ∧ info.id = P) ∧
      ∃ info, s.switch.peerBook.get P = some info ∧ info.appear = none := by
  induction post using List.reverseRecOn generalizing s with
  | nil =>
    obtain ⟨s₀, -, hst⟩ := Lts.run_concat_iff.1 hr
    refine .inl ⟨by simp, ?_⟩
    cases hst with
    | identify m now =>
      refine ⟨⟨m.pubkey.toPeerId, m.raddrs, m.identity.protocols, some now, none⟩, ?_, rfl, rfl⟩
      simp [Identified.record, RawMemoryPeerBook.get_insert]
  | append_singleton post op ih =>
    rw [← List.cons_append, ← List.append_assoc] at hr
    obtain ⟨s₀, hr₀, hst⟩ := Lts.run_concat_iff.1 hr
    have hop := hpost op (by simp)
    have ih := ih hr₀ fun op' hmem => hpost op' (List.mem_append_left _ hmem)
    have hheard := (bookLts_inv hr₀).2
    rcases hst.get P with ⟨hother, he⟩ | ⟨protos', now', rfl, -⟩ | ⟨info, rfl, hid, he⟩ | ⟨rfl, -⟩
    · rw [he]
      rcases ih with ⟨hno, hentry⟩ | ⟨⟨info, hmem, hid⟩, hentry⟩
      · refine .inl ⟨fun info hmem => ?_, hentry⟩
        rcases List.mem_append.1 hmem with hmem | hmem
        · exact hno info hmem
        · exact hother info (List.mem_singleton.1 hmem).symm
      · exact .inr ⟨⟨info, List.mem_append_left _ hmem, hid⟩, hentry⟩
    · exact absurd rfl (hop.2 protos' now')
    · -- a discovery has replaced the entry
      refine .inr ⟨⟨info, by simp, hid⟩, _, he, ?_⟩
      cases hst with
      | insert before info rest after hrun =>
        exact (hheard (info :: rest) (by rw [hrun]; simp) info List.mem_cons_self).2
    · exact absurd rfl hop.1

/-- **What it takes to be remembered.**  After the identify message of a peer has been recorded, and
while the peer is not removed and sends no other one, the book remembers what the message said if
and only if no discovery inserts an entry for the peer. -/
theorem discovery_keeps_identified_iff {pre post : List BookOp} {P : PeerId} {protos : List String}
    {now : SystemTime}
    (hr : (bookLts maxPacketSize).Run (pre ++ .identify P protos now :: post) s)
    (hpost : ∀ op ∈ post, op ≠ .remove P ∧ ∀ protos now, op ≠ .identify P protos now) :
    Remembers s.switch.peerBook P protos now ↔ ∀ info, .insert info ∈ post → info.id ≠ P := by
  rcases get_after_identify hr hpost with
    ⟨hno, info, hget, rfl, happear⟩ | ⟨⟨info, hmem, hid⟩, info', hget, happear⟩
  · refine ⟨fun _ => hno, fun _ => ⟨⟨info, hget, rfl, happear⟩, fun proto hproto n hpos => ?_⟩⟩
    rw [RawMemoryPeerBook.exists_mem_choosePeers hpos, RawMemoryPeerBook.mem_candidates]
    exact ⟨P, info, hget, hproto, (bookLts_inv hr).1 P info hget⟩
  · constructor
    · rintro ⟨⟨info'', hget'', -, happear''⟩, -⟩
      rw [hget] at hget''
      cases hget''
      rw [happear] at happear''
      cases happear''
    · intro hno
      exact absurd hid (hno info hmem)

end

section Sample

/-- The identify message of the node with key `keyA`, which is a relay. -/
def relayIdentity : List UInt8 := 0x0a :: 36 :: keyA.encodeProtobuf ++ 0x1a :: 31 :: [
  0x2f, 0x6c, 0x69, 0x62, 0x70, 0x32, 0x70, 0x2f, 0x63, 0x69, 0x72, 0x63, 0x75, 0x69,
  0x74, 0x2f, 0x72, 0x65, 0x6c, 0x61, 0x79, 0x2f, 0x30, 0x2e, 0x32, 0x2e, 0x30, 0x2f,
  0x68, 0x6f, 0x70]

/-- The third-party functions, on the messages of this node. -/
@[reducible] def relayLibp2p : Libp2p := { Libp2p.ed25519 with
  parseIdentity := fun bytes =>
    if bytes = relayIdentity then
      .ok ⟨keyA.encodeProtobuf, [], none, ["/libp2p/circuit/relay/0.2.0/hop"]⟩
    else Libp2p.ed25519.parseIdentity bytes }

/-- Peer ids are read as they are, and no textual address is. -/
@[reducible] def plainText : PeerText := ⟨fun bytes => .ok ⟨bytes⟩, fun _ => .error (.multiaddr "")⟩

attribute [local instance] relayLibp2p plainText

/-- What the identify message says. -/
def relayIdentified : Identified 4194304 (71 :: relayIdentity) where
  bodyLen := 71
  rest := relayIdentity
  identity := ⟨keyA.encodeProtobuf, [], none, ["/libp2p/circuit/relay/0.2.0/hop"]⟩
  pubkey := keyA
  raddrs := []
  observedAddrs := []
  read_len := rfl
  fits := by decide
  complete := by decide
  parse := by decide
  decode_key := rfl
  decode_raddrs := rfl
  decode_observed := rfl

/-- A switch that has just been created. -/
def freshSwitch : SwitchState where
  peerBook := .default
  mutable := ⟨5, []⟩
  streamDispatcher := .default
  connector := .new 20
  links := fun _ => ⟨false, 0⟩
  events := []

/-- The operation that records the identify message. -/
def identifyRelay : BookOp := .identify keyA.toPeerId ["/libp2p/circuit/relay/0.2.0/hop"] 0

/-- The switch has recorded the identify message. -/
theorem relay_identified : (bookLts 4194304).Run [identifyRelay]
    ⟨relayIdentified.record 0 freshSwitch, []⟩ := by
  have hstart : (bookLts 4194304).Run [] ⟨freshSwitch, []⟩ := .start ⟨rfl, rfl⟩
  exact hstart.snoc (.identify ⟨freshSwitch, []⟩ relayIdentified 0)

/-- A peer with key `keyC` is asked for the peers near the relay, and lists the peer with key
`keyB`. -/
def otherListed : Discovery :=
  .findNode keyA.toPeerId keyC.toPeerId (.ok [⟨keyB.toPeerId.toBytes, []⟩])

/-- A relay identifies itself, and another peer is discovered then. -/
theorem discovery_keeps_identified_iff_relay : ∃ s,
    (bookLts 4194304).Run [identifyRelay, .discover otherListed,
      .insert (.discovered keyB.toPeerId [])] s ∧
    Remembers s.switch.peerBook keyA.toPeerId ["/libp2p/circuit/relay/0.2.0/hop"] 0 ∧
    s.switch.peerBook.get keyB.toPeerId = some (.discovered keyB.toPeerId []) ∧
    s.switch.peerBook.candidates "/libp2p/circuit/relay/0.2.0/hop" = [keyA.toPeerId] := by
  have hinfos : otherListed.infos .id = [.discovered keyB.toPeerId []] := by decide
  have hdiscover := relay_identified.snoc (.discover _ otherListed .id)
  rw [hinfos] at hdiscover
  have hinsert := hdiscover.snoc (.insert [] (.discovered keyB.toPeerId []) [] [] rfl)
  have hrun : (bookLts 4194304).Run ([] ++ identifyRelay :: [.discover otherListed,
    .insert (.discovered keyB.toPeerId [])]) _ := hinsert
  have hother : (PeerInfo.discovered keyB.toPeerId []).id ≠ keyA.toPeerId := by decide
  exact ⟨_, hrun, (discovery_keeps_identified_iff hrun (by simp)).2 (by simpa using hother),
    by decide, by decide⟩

/-- A peer with key `keyC` is asked for the peers near the one with key `keyB`, and lists the
relay. -/
def relayListed : Discovery :=
  .findNode keyB.toPeerId keyC.toPeerId (.ok [⟨keyA.toPeerId.toBytes, []⟩])

/-- A relay identifies itself, and is then listed in the answer of a lookup: the book has forgotten
its protocols and that it has ever been connected. -/
theorem discovery_erases :
    ¬ ∀ (maxPacketSize : ℕ) (pre post : List BookOp) (P : PeerId) (protos : List String)
      (now : SystemTime) (s : BookState),
      (bookLts maxPacketSize).Run (pre ++ .identify P protos now :: post) s →
      (∀ op ∈ post, op ≠ .remove P ∧ ∀ protos now, op ≠ .identify P protos now) →
      Remembers s.switch.peerBook P protos now := by
  intro hall
  have hinfos : relayListed.infos .id = [.discovered keyA.toPeerId []] := by decide
  have hdiscover := relay_identified.snoc (.discover _ relayListed .id)
  rw [hinfos] at hdiscover
  have hinsert := hdiscover.snoc (.insert [] (.discovered keyA.toPeerId []) [] [] rfl)
  have hremembers := hall 4194304 [] [.discover relayListed, .insert (.discovered keyA.toPeerId [])]
    keyA.toPeerId ["/libp2p/circuit/relay/0.2.0/hop"] 0 _ hinsert (by simp)
  obtain ⟨info, hget, -, happear⟩ := hremembers.entry
  have hid : keyA.toPeerId = (PeerInfo.discovered keyA.toPeerId []).id := rfl
  rw [RawMemoryPeerBook.get_insert, if_pos hid] at hget
  cases hget
  cases happear

end Sample

end XStack
