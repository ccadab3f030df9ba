import XStack.Lts.Basic
import XStack.Switch.Announce

/-!
# What the peer books say about a switch

A network of switches that identify themselves to each other.  Each of them may change its NAT
state, its addresses and its protocols at any time; an answer is made of what `identity_response`
finds when it takes the mutex of the stream dispatcher and, later, that of the switch.  An answer
may be lost, or overtaken by another one, and `identity_push` makes its two updates one after the
other.

A connection has been authenticated: what arrives from a switch of the network has been written by
it.  Everybody else may send what they like, and a discovery may enter what it likes, although
without the time of a handshake.

## Main definitions

* `Switches`, `NetworkStep`, `networkLts` : the network.
* `Switches.Honest` : its invariant.

## Main results

* `peer_book_authentic` : what a peer book knows from a handshake about a switch of the network has
  been announced by this switch.
-/

namespace XStack

/-- A call of `identity_response` that has read the protocols. -/
structure Responding (ι : Type) where
  node : ι
  /-- Who has asked. -/
  receiver : ι
  isRelay : Bool
  peerAddr : Multiaddr
  protos : List String

/-- What a call of `identity_push` is going to read. -/
structure Delivery (ι : Type) where
  /-- The peer that the connection has been authenticated for. -/
  sender : PeerId
  receiver : ι
  bytes : List UInt8

/-- The switches, and the calls in progress. -/
structure Switches (ι : Type) where
  nodes : ι → Node
  responding : List (Responding ι)
  deliveries : List (Delivery ι)
  /-- What calls of `identity_push` have still to enter in the peer book. -/
  entering : List (ι × PeerInfo)

/-- What happens in the network. -/
inductive NetworkOp (ι : Type) where
  /-- `Switch::set_nat`. -/
  | setNat (i : ι) (state : AutoNAT)
  /-- `Switch::set_nat_addrs`. -/
  | setNatAddrs (i : ι) (addrs : List Multiaddr)
  /-- `Switch::remove_nat_addrs`. -/
  | removeNatAddrs (i : ι) (addrs : List Multiaddr)
  /-- `DriverStreamDispatcher::bind`. -/
  | bind (i : ι) (id : XStackId) (protocols : List String)
  /-- `DriverStreamDispatcher::close`. -/
  | close (i : ι) (id : XStackId)
  /-- A discovery enters what it has heard. -/
  | discover (i : ι) (info : PeerInfo)
  /-- `Switch::remove_peer_info`. -/
  | remove (i : ι) (peerId : PeerId)
  /-- `identity_response` reads the protocols. -/
  | protos (i : ι) (protos : List String)
  /-- `identity_response` reads the addresses, and writes its answer. -/
  | announce (i : ι) (protos : List String) (addrs : List Multiaddr)
  /-- Somebody else sends something. -/
  | forge (sender : PeerId)
  /-- `identity_push` reads an answer, and makes its first update. -/
  | observe (j : ι) (sender : PeerId)
  /-- `identity_push` makes its second update. -/
  | enter (j : ι) (sender : PeerId)
  /-- A call ends early. -/
  | lose

section

variable {ι : Type} [DecidableEq ι]

namespace Switches

/-- A switch has changed. -/
def setNode (s : Switches ι) (i : ι) (node : Node) : Switches ι :=
  { s with nodes := Function.update s.nodes i node }

theorem setNode_nodes (s : Switches ι) (i j : ι) (node : Node) :
    (s.setNode i node).nodes j = if j = i then node else s.nodes j := Function.update_apply ..

end Switches

variable [Libp2p] [MultiaddrBytes] [UnsignedVarint] [Protobuf.Runtime Error]

/-- The steps of the network; `key` is the key of each of the switches. -/
inductive NetworkStep (key : ι → PublicKey) (agentVersion : String) (maxPacketSize : ℕ) :
    Switches ι → NetworkOp ι → Switches ι → Prop
  | setNat (s : Switches ι) (i state) :
      NetworkStep key agentVersion maxPacketSize s (.setNat i state)
        (s.setNode i { s.nodes i with nat := state })
  | setNatAddrs (s : Switches ι) (i addrs) : (∀ addr ∈ addrs, addr.Decodes) →
      NetworkStep key agentVersion maxPacketSize s (.setNatAddrs i addrs)
        (s.setNode i { s.nodes i with natAddrs := setNetAddrs (s.nodes i).natAddrs addrs })
  | removeNatAddrs (s : Switches ι) (i addrs) :
      NetworkStep key agentVersion maxPacketSize s (.removeNatAddrs i addrs)
        (s.setNode i { s.nodes i with natAddrs := removeNetAddrs (s.nodes i).natAddrs addrs })
  | bind {s : Switches ι} {i id protocols raw} :
      (s.nodes i).streamDispatcher.bind id protocols = .ok raw →
      NetworkStep key agentVersion maxPacketSize s (.bind i id protocols)
        (s.setNode i { s.nodes i with streamDispatcher := raw })
  | close (s : Switches ι) (i id) :
      NetworkStep key agentVersion maxPacketSize s (.close i id)
        (s.setNode i
          { s.nodes i with streamDispatcher := (s.nodes i).streamDispatcher.close id })
  | discover (s : Switches ι) (i info) : info.appear = none →
      NetworkStep key agentVersion maxPacketSize s (.discover i info)
        (s.setNode i { s.nodes i with peerBook := ((s.nodes i).peerBook.insert info).2 })
  | remove (s : Switches ι) (i peerId) :
      NetworkStep key agentVersion maxPacketSize s (.remove i peerId)
        (s.setNode i { s.nodes i with peerBook := ((s.nodes i).peerBook.remove peerId).2 })
  | protos (s : Switches ι) (i receiver isRelay peerAddr protos) : (s.nodes i).Protos protos →
      NetworkStep key agentVersion maxPacketSize s (.protos i protos)
        { s with responding := ⟨i, receiver, isRelay, peerAddr, protos⟩ :: s.responding }
  /-- A message of two gigabytes or more is not considered. -/
  | announce {s : Switches ι} (before r after addrs bytes) :
      s.responding = before ++ r :: after → (s.nodes r.node).ListenAddrs addrs →
      IdentityAnswer.size ⟨r.isRelay, r.peerAddr, key r.node, agentVersion, r.protos, addrs⟩ ≤
        Protobuf.maxLen →
      IdentityAnswer.written ⟨r.isRelay, r.peerAddr, key r.node, agentVersion, r.protos, addrs⟩ =
        .ok bytes →
      NetworkStep key agentVersion maxPacketSize s (.announce r.node r.protos addrs)
        { s with
          responding := before ++ after
          deliveries := ⟨(key r.node).toPeerId, r.receiver, bytes⟩ :: s.deliveries }
  | forge (s : Switches ι) (d : Delivery ι) : (∀ i, (key i).toPeerId ≠ d.sender) →
      NetworkStep key agentVersion maxPacketSize s (.forge d.sender)
        { s with deliveries := d :: s.deliveries }
  | observe {s : Switches ι} (before d after) (m : Identified maxPacketSize d.bytes) (now) :
      s.deliveries = before ++ d :: after → m.pubkey.toPeerId = d.sender →
      NetworkStep key agentVersion maxPacketSize s (.observe d.receiver d.sender)
        { (s.setNode d.receiver { s.nodes d.receiver with
            mutable := (s.nodes d.receiver).mutable.setObservedAddrs m.direct }) with
          deliveries := before ++ after
          entering := (d.receiver, m.info now) :: s.entering }
  | enter {s : Switches ι} (before j info after) : s.entering = before ++ (j, info) :: after →
      NetworkStep key agentVersion maxPacketSize s (.enter j info.id)
        { (s.setNode j { s.nodes j with
            peerBook := ((s.nodes j).peerBook.insert info).2 }) with
          entering := before ++ after }
  | loseAnswer {s : Switches ι} (before r after) : s.responding = before ++ r :: after →
      NetworkStep key agentVersion maxPacketSize s .lose { s with responding := before ++ after }
  | loseDelivery {s : Switches ι} (before d after) : s.deliveries = before ++ d :: after →
      NetworkStep key agentVersion maxPacketSize s .lose { s with deliveries := before ++ after }
  | loseEntry {s : Switches ι} (before e after) : s.entering = before ++ e :: after →
      NetworkStep key agentVersion maxPacketSize s .lose { s with entering := before ++ after }

/-- The runs of a network of new switches. -/
def networkLts (key : ι → PublicKey) (agentVersion : String) (maxPacketSize : ℕ) :
    Lts (Switches ι) (NetworkOp ι) where
  init s := s.responding = [] ∧ s.deliveries = [] ∧ s.entering = [] ∧ ∀ i, ∃ maxObservedAddrsLen,
    s.nodes i = ⟨.default, .new maxObservedAddrsLen, ∅, .unknown, .default⟩
  step := NetworkStep key agentVersion maxPacketSize

/-! ### Where the entries come from -/

variable {key : ι → PublicKey} {agentVersion : String} {maxPacketSize : ℕ} {s s' : Switches ι}
  {h : List (NetworkOp ι)} {op : NetworkOp ι}

/-- What is known about a switch has been announced by it. -/
def Backed (h : List (NetworkOp ι)) (i : ι) (info : PeerInfo) : Prop :=
  ∃ protos, .announce i protos info.addrs ∈ h ∧ info.protos = protos ++ builtinProtocols

/-- Every entry with the time of a handshake is backed. -/
def BackedBook (key : ι → PublicKey) (h : List (NetworkOp ι)) (book : RawMemoryPeerBook) : Prop :=
  ∀ i info, book.get (key i).toPeerId = some info → info.appear ≠ none → Backed h i info

/-- The addresses that a switch may announce can be decoded, and it has been seen directly. -/
structure Node.Sound (node : Node) : Prop where
  observed : ∀ addr ∈ node.mutable.observedAddrs, addr.Decodes ∧ Protocol.p2pCircuit ∉ addr
  natAddrs : ∀ addr ∈ node.natAddrs, addr.Decodes

/-- The answer has been given by a switch of the network. -/
structure Genuine (key : ι → PublicKey) (h : List (NetworkOp ι)) (i : ι) (bytes : List UInt8)
    (answer : IdentityAnswer) : Prop where
  publicKey : answer.publicKey = key i
  size : answer.size ≤ Protobuf.maxLen
  written : answer.written = .ok bytes
  decodes : ∀ addr ∈ answer.listenAddrs, addr.Decodes
  announced : .announce i answer.protos answer.listenAddrs ∈ h

/-- The invariant of the network. -/
structure Switches.Honest (key : ι → PublicKey) (h : List (NetworkOp ι)) (s : Switches ι) :
    Prop where
  sound : ∀ i, (s.nodes i).Sound
  book : ∀ j, BackedBook key h (s.nodes j).peerBook
  deliveries : ∀ d ∈ s.deliveries, ∀ i, d.sender = (key i).toPeerId →
    ∃ answer, Genuine key h i d.bytes answer
  entering : ∀ e ∈ s.entering, ∀ i, e.2.id = (key i).toPeerId → Backed h i e.2

omit [DecidableEq ι] [Libp2p] [MultiaddrBytes] [UnsignedVarint] [Protobuf.Runtime Error] in
theorem Backed.mono {i : ι} {info : PeerInfo} (hb : Backed h i info) (op : NetworkOp ι) :
    Backed (h ++ [op]) i info := by
  obtain ⟨protos, hmem, hprotos⟩ := hb
  exact ⟨protos, List.mem_append_left _ hmem, hprotos⟩

omit [UnsignedVarint] [Protobuf.Runtime Error] in
theorem Node.Sound.decodes {node : Node} (hn : node.Sound) {addrs : List Multiaddr}
    (hlisten : node.ListenAddrs addrs) : ∀ addr ∈ addrs, addr.Decodes := by
  unfold Node.ListenAddrs at hlisten
  intro addr hmem
  split at hlisten
  · exact (hn.observed addr (hlisten ▸ hmem)).1
  · exact hn.natAddrs addr (hlisten.2 ▸ List.mem_toFinset.2 hmem)
  · rw [hlisten] at hmem
    cases hmem

theorem Identified.direct_decodes [Libp2p.Wired] {bytes : List UInt8}
    (m : Identified maxPacketSize bytes) {addr : Multiaddr} (hmem : addr ∈ m.direct) :
    addr.Decodes ∧ Protocol.p2pCircuit ∉ addr := by
  obtain ⟨hobserved, hdirect⟩ := m.mem_direct.1 hmem
  refine ⟨?_, hdirect⟩
  obtain ⟨encoded, -, hdecode⟩ := exists_of_mem_mapM m.decode_observed hobserved
  exact Libp2p.Wired.decode_decoded encoded addr hdecode

namespace Switches.Honest

omit [DecidableEq ι] in
theorem mono (hs : s.Honest key h) (op : NetworkOp ι) : s.Honest key (h ++ [op]) where
  sound := hs.sound
  book j i info hget happear := (hs.book j i info hget happear).mono op
  deliveries d hmem i hsender := by
    obtain ⟨answer, hg⟩ := hs.deliveries d hmem i hsender
    exact ⟨answer, { hg with announced := List.mem_append_left _ hg.announced }⟩
  entering e hmem i hid := (hs.entering e hmem i hid).mono op

theorem setNode (hs : s.Honest key h) (i : ι) {node : Node} (hsound : node.Sound)
    (hbook : BackedBook key h node.peerBook) : (s.setNode i node).Honest key h where
  sound j := by
    rw [setNode_nodes]
    split_ifs
    · exact hsound
    · exact hs.sound j
  book j := by
    rw [setNode_nodes]
    split_ifs
    · exact hbook
    · exact hs.book j
  deliveries := hs.deliveries
  entering := hs.entering

omit [DecidableEq ι] in
theorem fewer (hs : s.Honest key h) {responding : List (Responding ι)}
    {deliveries : List (Delivery ι)} {entering : List (ι × PeerInfo)}
    (hdeliveries : deliveries ⊆ s.deliveries) (hentering : entering ⊆ s.entering) :
    Honest key h { s with responding, deliveries, entering } where
  sound := hs.sound
  book := hs.book
  deliveries d hmem := hs.deliveries d (hdeliveries hmem)
  entering e hmem := hs.entering e (hentering hmem)

end Switches.Honest

omit [DecidableEq ι] [MultiaddrBytes] [UnsignedVarint] [Protobuf.Runtime Error] in
theorem BackedBook.insert {book : RawMemoryPeerBook} (hbook : BackedBook key h book)
    {info : PeerInfo}
    (hinfo : ∀ i, info.id = (key i).toPeerId → info.appear ≠ none → Backed h i info) :
    BackedBook key h (book.insert info).2 := by
  intro i info' hget happear
  rw [RawMemoryPeerBook.get_insert] at hget
  split_ifs at hget with hid
  · cases hget
    exact hinfo i hid.symm happear
  · exact hbook i info' hget happear

omit [DecidableEq ι] in
/-- What `identity_push` makes of an answer of a switch of the network. -/
theorem Genuine.backed [Protobuf.Runtime.Lawful Error] [Libp2p.Wired] {i : ι} {bytes : List UInt8}
    {answer : IdentityAnswer} (hg : Genuine key h i bytes answer)
    (hkey : Libp2p.tryDecodeProtobuf (key i).encodeProtobuf = .ok (key i))
    (m : Identified maxPacketSize bytes) (now : SystemTime) : Backed h i (m.info now) := by
  obtain ⟨-, hraddrs, hprotos⟩ := IdentityAnswer.fields_of_written hg.size hg.written
    (hg.publicKey ▸ hkey) hg.decodes m
  refine ⟨answer.protos, ?_, hprotos⟩
  show .announce i answer.protos m.raddrs ∈ h
  rw [hraddrs]
  exact hg.announced

section

variable [Protobuf.Runtime.Lawful Error] [Libp2p.Wired]
  (hinj : Function.Injective fun i => (key i).toPeerId)
  (hkey : ∀ i, Libp2p.tryDecodeProtobuf (key i).encodeProtobuf = .ok (key i))

include hinj hkey

theorem NetworkStep.honest (hs : s.Honest key h)
    (hst : NetworkStep key agentVersion maxPacketSize s op s') :
    s'.Honest key (h ++ [op]) := by
  have hs₁ := hs.mono op
  cases hst with
  | setNat i state =>
    exact hs₁.setNode i ⟨(hs.sound i).observed, (hs.sound i).natAddrs⟩ (hs₁.book i)
  | setNatAddrs i addrs hdecodes =>
    refine hs₁.setNode i ⟨(hs.sound i).observed, fun addr hmem => ?_⟩ (hs₁.book i)
    exact (mem_setNetAddrs.1 hmem).elim ((hs.sound i).natAddrs addr) (hdecodes addr)
  | removeNatAddrs i addrs =>
    refine hs₁.setNode i ⟨(hs.sound i).observed, fun addr hmem => ?_⟩ (hs₁.book i)
    exact (hs.sound i).natAddrs addr (mem_removeNetAddrs.1 hmem).1
  | bind | close => exact hs₁.setNode _ ⟨(hs.sound _).observed, (hs.sound _).natAddrs⟩ (hs₁.book _)
  | discover i info happear =>
    exact hs₁.setNode i ⟨(hs.sound i).observed, (hs.sound i).natAddrs⟩
      ((hs₁.book i).insert fun _ _ hne => absurd happear hne)
  | remove i peerId =>
    refine hs₁.setNode i ⟨(hs.sound i).observed, (hs.sound i).natAddrs⟩ ?_
    intro i' info hget happear
    rw [RawMemoryPeerBook.get_remove] at hget
    split_ifs at hget
    exact hs₁.book i i' info hget happear
  | protos => exact hs₁.fewer (List.Subset.refl _) (List.Subset.refl _)
  | announce before r after addrs bytes hr hlisten hsize hwritten =>
    refine { hs₁ with deliveries := fun d hmem i hsender => ?_ }
    rcases List.mem_cons.1 hmem with rfl | hmem
    · obtain rfl : r.node = i := hinj hsender
      exact ⟨_, rfl, hsize, hwritten, (hs.sound r.node).decodes hlisten, List.mem_concat_self⟩
    · exact hs₁.deliveries d hmem i hsender
  | forge d hforged =>
    refine { hs₁ with deliveries := fun d' hmem i hsender => ?_ }
    rcases List.mem_cons.1 hmem with rfl | hmem
    · exact absurd hsender.symm (hforged i)
    · exact hs₁.deliveries d' hmem i hsender
  | observe before d after m now hd hpeer =>
    have hsound : Node.Sound { s.nodes d.receiver with
        mutable := (s.nodes d.receiver).mutable.setObservedAddrs m.direct } := by
      refine ⟨fun addr hmem => ?_, (hs.sound d.receiver).natAddrs⟩
      have hsuffix := foldl_slide_suffix (s.nodes d.receiver).mutable.maxObservedAddrsLen
        (s.nodes d.receiver).mutable.observedAddrs m.direct
      simp only [MutableSwitch.setObservedAddrs_eq] at hmem
      rcases List.mem_append.1 (hsuffix.subset hmem) with hold | hnew
      · exact (hs.sound d.receiver).observed addr hold
      · exact m.direct_decodes hnew
    have hset := hs₁.setNode d.receiver hsound (hs₁.book d.receiver)
    refine { hset with deliveries := fun d' hmem => ?_, entering := fun e hmem i hid => ?_ }
    · refine hs₁.deliveries d' ?_
      rw [hd]
      exact List.mem_append.2 ((List.mem_append.1 hmem).imp_right (List.mem_cons_of_mem d))
    · rcases List.mem_cons.1 hmem with rfl | hmem
      · obtain ⟨answer, hg⟩ := hs₁.deliveries d (by simp [hd]) i (hpeer.symm.trans hid)
        exact hg.backed (hkey i) m now
      · exact hs₁.entering e hmem i hid
  | enter before j info after he =>
    have hbook := (hs₁.book j).insert fun i hid _ => hs₁.entering (j, info) (by simp [he]) i hid
    have hset : (s.setNode j { s.nodes j with
        peerBook := ((s.nodes j).peerBook.insert info).2 }).Honest key _ :=
      hs₁.setNode j ⟨(hs.sound j).observed, (hs.sound j).natAddrs⟩ hbook
    refine hset.fewer (List.Subset.refl _) ?_
    show before ++ after ⊆ s.entering
    simp [he]
  | loseAnswer => exact hs₁.fewer (List.Subset.refl _) (List.Subset.refl _)
  | loseDelivery before d after hd => exact hs₁.fewer (by simp [hd]) (List.Subset.refl _)
  | loseEntry before e after he => exact hs₁.fewer (List.Subset.refl _) (by simp [he])

theorem networkLts_honest (hr : (networkLts key agentVersion maxPacketSize).Run h s) :
    s.Honest key h := by
  refine hr.invariant ?_ fun _ _ _ _ _ hs hst => hst.honest hinj hkey hs
  rintro s ⟨-, hdeliveries, hentering, hnodes⟩
  refine ⟨fun i => ?_, fun j i info hget => ?_, by simp [hdeliveries], by simp [hentering]⟩
  · obtain ⟨maxLen, hnode⟩ := hnodes i
    rw [hnode]
    exact ⟨by simp [MutableSwitch.new], by simp⟩
  · obtain ⟨maxLen, hnode⟩ := hnodes j
    rw [hnode] at hget
    cases hget

end

/-- A call of `identity_response` that goes on has read the protocols. -/
theorem responding_protos (hr : (networkLts key agentVersion maxPacketSize).Run h s) :
    ∀ r ∈ s.responding, .protos r.node r.protos ∈ h := by
  refine hr.invariant (I := fun h s => ∀ r ∈ s.responding, .protos r.node r.protos ∈ h) ?_ ?_
  · rintro s ⟨hresponding, -⟩ r hmem
    rw [hresponding] at hmem
    cases hmem
  · intro h s op s' _ hs hst r hmem
    cases hst with
    | protos i receiver isRelay peerAddr protos =>
      rcases List.mem_cons.1 hmem with rfl | hmem
      · exact List.mem_concat_self
      · exact List.mem_append_left _ (hs r hmem)
    | announce before r' after addrs bytes hr' =>
      refine List.mem_append_left _ (hs r ?_)
      rw [hr']
      exact List.mem_append.2 ((List.mem_append.1 hmem).imp_right (List.mem_cons_of_mem r'))
    | loseAnswer before r' after hr' =>
      refine List.mem_append_left _ (hs r ?_)
      rw [hr']
      exact List.mem_append.2 ((List.mem_append.1 hmem).imp_right (List.mem_cons_of_mem r'))
    | _ => exact List.mem_append_left _ (hs r hmem)

/-- **An answer in a run**: the protocols have been those of the switch at one moment, and the
addresses at a later one. -/
theorem announce_split {i : ι} {protos : List String} {addrs : List Multiaddr}
    (hr : (networkLts key agentVersion maxPacketSize).Run h s)
    (hmem : .announce i protos addrs ∈ h) : ∃ pre mid post s₁ s₂,
      h = pre ++ .protos i protos :: mid ++ .announce i protos addrs :: post ∧
      (networkLts key agentVersion maxPacketSize).Run pre s₁ ∧ (s₁.nodes i).Protos protos ∧
      (networkLts key agentVersion maxPacketSize).Run (pre ++ .protos i protos :: mid) s₂ ∧
      (s₂.nodes i).ListenAddrs addrs := by
  obtain ⟨before, post, rfl⟩ := List.append_of_mem hmem
  obtain ⟨s₂, s₂', hbefore, hannounce⟩ := hr.split
  have hasked := responding_protos hbefore
  cases hannounce with
  | announce _ r _ _ bytes hresponding hlisten =>
    obtain ⟨pre, mid, rfl⟩ := List.append_of_mem (hasked r (by simp [hresponding]))
    obtain ⟨s₁, s₁', hpre, hprotos⟩ := hbefore.split
    cases hprotos with
    | protos _ _ _ _ _ hprotos =>
      exact ⟨pre, mid, post, s₁, s₂, rfl, hpre, hprotos, hbefore, hlisten⟩

/-- **What a peer book knows about a switch has been announced by it.**  Whatever the switches do
and in whatever order the answers arrive, and whatever others send and discoveries enter: an entry
with the time of a handshake has the protocols that its switch had at one moment of the run, besides
the ones that every switch serves, and the addresses that it listened on at a later one; and if it
was a public switch then, none of these goes through a relay. -/
theorem peer_book_authentic [Protobuf.Runtime.Lawful Error] [Libp2p.Wired] (key : ι → PublicKey)
    (agentVersion : String) (maxPacketSize : ℕ) (h : List (NetworkOp ι)) (s : Switches ι)
    (hinj : Function.Injective fun i => (key i).toPeerId)
    (hkey : ∀ i, Libp2p.tryDecodeProtobuf (key i).encodeProtobuf = .ok (key i))
    (hr : (networkLts key agentVersion maxPacketSize).Run h s) (i j : ι) (info : PeerInfo)
    (hget : (s.nodes j).peerBook.get (key i).toPeerId = some info) (happear : info.appear ≠ none) :
    ∃ protos pre mid post s₁ s₂, info.protos = protos ++ builtinProtocols ∧
      h = pre ++ .protos i protos :: mid ++ .announce i protos info.addrs :: post ∧
      (networkLts key agentVersion maxPacketSize).Run pre s₁ ∧ (s₁.nodes i).Protos protos ∧
      (networkLts key agentVersion maxPacketSize).Run (pre ++ .protos i protos :: mid) s₂ ∧
      (s₂.nodes i).ListenAddrs info.addrs ∧
      ((s₂.nodes i).nat = .publicNode → ∀ addr ∈ info.addrs, Protocol.p2pCircuit ∉ addr) := by
  obtain ⟨protos, hmem, hprotos⟩ := (networkLts_honest hinj hkey hr).book j i info hget happear
  obtain ⟨pre, mid, post, s₁, s₂, hh, hpre, hread, hmid, hlisten⟩ := announce_split hr hmem
  refine ⟨protos, pre, mid, post, s₁, s₂, hprotos, hh, hpre, hread, hmid, hlisten, ?_⟩
  intro hnat addr haddr
  rw [Node.ListenAddrs, hnat] at hlisten
  exact (((networkLts_honest hinj hkey hmid).sound i).observed addr (hlisten ▸ haddr)).2

end

section Sample

attribute [local instance] Proto.wire Proto.wire_lawful MultiaddrBytes.multiformats plainVarint
  Libp2p.twoNodes Libp2p.twoNodes_wired

/-- The keys of two switches. -/
def twoKeys : Bool → PublicKey
  | true => keyA
  | false => keyB

/-- Two new switches. -/
def twoSwitches : Switches Bool :=
  ⟨fun _ => ⟨.default, .new 5, ∅, .unknown, .default⟩, [], [], []⟩

/-- What the first switch answers when it has one relay. -/
def relayAnswer : IdentityAnswer := ⟨false, addr4002, keyA, "xstack", [], [addr4001]⟩

theorem relayAnswer_decodes : ∀ addr ∈ relayAnswer.listenAddrs, addr.Decodes := by
  intro addr hmem
  cases List.mem_singleton.1 hmem
  rfl

/-- The first switch has a relay, and identifies itself to the second one. -/
theorem peer_book_authentic_relay : ∃ h s info protos,
    (networkLts twoKeys "xstack" 4096).Run h s ∧
    (s.nodes false).peerBook.get keyA.toPeerId = some info ∧ info.addrs = [addr4001] ∧
    info.protos = protos ++ builtinProtocols ∧ .announce true protos info.addrs ∈ h := by
  have start : (networkLts twoKeys "xstack" 4096).Run [] twoSwitches :=
    .start ⟨rfl, rfl, rfl, fun _ => ⟨5, rfl⟩⟩
  have relay := start.snoc (.setNatAddrs _ true [addr4001] relayAnswer_decodes)
  have nat := relay.snoc (.setNat _ true .nat)
  have asked := nat.snoc (.protos _ true false false addr4002 [] (.refl _))
  obtain ⟨bytes, hwritten⟩ : ∃ bytes, relayAnswer.written = .ok bytes := ⟨_, rfl⟩
  have hsize : relayAnswer.size ≤ Protobuf.maxLen := by decide
  have announced := asked.snoc (.announce [] _ [] [addr4001] bytes rfl ⟨by decide, rfl⟩ hsize
    hwritten)
  obtain ⟨m, -⟩ : ∃ m : Identified 4096 bytes, m.observedAddrs = relayAnswer.observed :=
    IdentityAnswer.exists_identified hsize hwritten rfl rfl relayAnswer_decodes (by decide)
  obtain ⟨hkey, hraddrs, -⟩ :=
    IdentityAnswer.fields_of_written hsize hwritten rfl relayAnswer_decodes m
  have observed := announced.snoc (.observe [] _ [] m 0 rfl (congrArg PublicKey.toPeerId hkey))
  have entered := observed.snoc (.enter [] false (m.info 0) [] rfl)
  -- the second switch has one entry now
  have hid : keyA.toPeerId = (m.info 0).id := congrArg PublicKey.toPeerId hkey.symm
  have hget := RawMemoryPeerBook.get_insert .default (m.info 0) keyA.toPeerId
  rw [if_pos hid] at hget
  have hinj : Function.Injective fun i => (twoKeys i).toPeerId := by
    intro i j h
    cases i <;> cases j <;> first | rfl | exact absurd h (by decide)
  obtain ⟨protos, pre, mid, post, -, -, hprotos, hh, -⟩ := peer_book_authentic twoKeys "xstack" 4096
    _ _ hinj (by intro i; cases i <;> rfl) entered true false _ hget (by simp [Identified.info])
  refine ⟨_, _, _, protos, entered, hget, hraddrs, hprotos, ?_⟩
  rw [hh]
  simp

end Sample

end XStack
