import XStack.Book
import XStack.Data.Except
import XStack.Kad.Lookup

/-!
# Discovering peers

Three parts of the stack put peers into the peer book that they have only heard of: a lookup of the
routing table, for the peers that an answer lists (`FindNode::route`), the mDNS protocol, for the
peers that a response names (`MdnsProtocol::handle_response`), and the constructor of the router,
for its seeds (`KademliaOptions::with_seeds`).  Each of them builds the entries from a peer id and
addresses alone, and inserts them one after the other; `Discovery.infos` lists them.

## Main definitions

* `kadFindNode`, `FindNode.route`, `handleResponse`, `withSeeds` : the code.
* `Discovery`, `Discovery.infos` : the entries a discovery inserts.
* `Discovery.Names` : the discovery names a peer.

## Main results

* `seedPeers_eq_ok_iff`, `txtPeers_eq` : the loops that collect the addresses group them by peer.
* `exists_mem_infos_iff` : a discovery inserts an entry for exactly the peers it names.
* `get_insertAll_collected` : the book after the collected entries have been inserted.
-/

namespace XStack

/-- The third-party functions that read peer ids and textual addresses. -/
class PeerText where
  /-- `PeerId::from_bytes`. -/
  fromBytes : List UInt8 → Except Error PeerId
  /-- `Multiaddr::from_str`. -/
  fromStr : String → Except Error Multiaddr

/-- A peer in a message of the Kademlia protocol; the fields that a lookup reads. -/
structure KadPeer where
  /-- `id`. -/
  id : List UInt8
  /-- `addrs`. -/
  addrs : List (List UInt8)
  deriving DecidableEq, Repr

/-- The errors of the `kad` crate that its constructor can end with. -/
inductive KadError where
  | withoutP2p (addr : Multiaddr)
  | other (msg : String)
  deriving DecidableEq, Repr

/-- The errors of a multicast DNS response. -/
inductive MdnsError where
  | utf8Error
  deriving DecidableEq, Repr

/-- `PeerInfo { id, addrs, ..Default::default() }`. -/
def PeerInfo.discovered (id : PeerId) (addrs : List Multiaddr) : PeerInfo :=
  ⟨id, addrs, [], none, none⟩

/-- The step of the loops that collect the addresses by peer. -/
def pushAddr (peerAddrs : HashMap PeerId (List Multiaddr)) (id : PeerId) (raddr : Multiaddr) :
    HashMap PeerId (List Multiaddr) :=
  match peerAddrs.get id with
  | some addrs => peerAddrs.insert id (addrs ++ [raddr])
  | none => peerAddrs.insert id [raddr]

/-- The entries for the collected addresses, in the order of the traversal. -/
def collected (order : Shuffle (PeerId × List Multiaddr))
    (peerAddrs : HashMap PeerId (List Multiaddr)) : List PeerInfo :=
  (order.run peerAddrs.iter).map fun e => .discovered e.1 e.2

/-- A TXT record of a multicast DNS response: its strings, joined. -/
def decodeTxt (record : List (List UInt8)) : Except MdnsError String :=
  (record.mapM fun x => okOr .utf8Error (String.fromUTF8? ⟨x.toArray⟩)).map String.join

section

variable [PeerText]

/-- `KademliaRpc::kad_find_node`, on the `closerPeers` of the answer. -/
def kadFindNode [Libp2p] (closerPeers : List KadPeer) : Except Error (List PeerInfo) :=
  closerPeers.mapM fun peer => do
    let addrs ← peer.addrs.mapM Libp2p.decodeMultiaddr
    let id ← PeerText.fromBytes peer.id
    return .discovered id addrs

/-- `FindNode::route`: what it returns, and the entries it inserts before; `answer` is what the call
of the peer comes to. -/
def FindNode.route [Libp2p] (target peerId : PeerId) (answer : Except Error (List KadPeer)) :
    Except Error (Routing × List PeerInfo) :=
  if peerId = target then .ok (.finished, [])
  else do
    let closerPeers ← answer
    let closestK ← kadFindNode closerPeers
    let finished := closestK.any fun peerInfo => peerInfo.id = target
    return (if finished then .finished else .closest (closestK.map PeerInfo.id), closestK)

/-- The addresses in a TXT record. -/
def txtAddrs (txt : String) : List Multiaddr :=
  (txt.splitOn "dnsaddr=").filterMap fun addr => (PeerText.fromStr addr).toOption

/-- The addresses in a TXT record, by peer. -/
def txtPeers (txt : String) : HashMap PeerId (List Multiaddr) :=
  (txtAddrs txt).foldl (fun peerAddrs raddr =>
    match raddr.getLast? with
    | some (.p2p id) => pushAddr peerAddrs id raddr.dropLast
    | _ => peerAddrs) ∅

/-- `MdnsProtocol::handle_response`, on the data of the additional records (`none` where a record is
not a TXT record): the entries it inserts, and how it ends. -/
def handleResponse (order : Shuffle (PeerId × List Multiaddr)) :
    List (Option (List (List UInt8))) → List PeerInfo × Except MdnsError Unit
  | [] => ([], .ok ())
  | none :: additionals => handleResponse order additionals
  | some record :: additionals =>
    match decodeTxt record with
    | .error err => ([], .error err)
    | .ok txt =>
      (collected order (txtPeers txt) ++ (handleResponse order additionals).1,
        (handleResponse order additionals).2)

end

/-- The seeds by peer; a seed is what `try_into` makes of it. -/
def seedPeers : HashMap PeerId (List Multiaddr) → List (Except String Multiaddr) →
    Except KadError (HashMap PeerId (List Multiaddr))
  | peerAddrs, [] => .ok peerAddrs
  | _, .error err :: _ => .error (.other err)
  | peerAddrs, .ok raddr :: seeds =>
    match raddr.getLast? with
    | some (.p2p id) => seedPeers (pushAddr peerAddrs id raddr) seeds
    | _ => .error (.withoutP2p raddr)

/-- `KademliaOptions::with_seeds`: the entries it inserts. -/
def withSeeds (order : Shuffle (PeerId × List Multiaddr)) (seeds : List (Except String Multiaddr)) :
    Except KadError (List PeerInfo) := (seedPeers ∅ seeds).map (collected order)

/-- What the stack can hear of peers that it is not connected to. -/
inductive Discovery where
  /-- The answer of `peerId`, in a lookup of `target`. -/
  | findNode (target peerId : PeerId) (answer : Except Error (List KadPeer))
  /-- The additional records of a multicast DNS response. -/
  | response (additionals : List (Option (List (List UInt8))))
  /-- The seeds of a router. -/
  | seeded (seeds : List (Except String Multiaddr))

namespace Discovery

variable [Libp2p] [PeerText]

/-- The entries that the discovery inserts, in this order. -/
def infos (order : Shuffle (PeerId × List Multiaddr)) : Discovery → List PeerInfo
  | .findNode target peerId answer =>
    match FindNode.route target peerId answer with
    | .ok (_, closestK) => closestK
    | .error _ => []
  | .response additionals => (handleResponse order additionals).1
  | .seeded seeds =>
    match withSeeds order seeds with
    | .ok infos => infos
    | .error _ => []

/-- The discovery names the peer `P`: the answer of another peer than the target decodes and lists
it; or a TXT record has an address that ends in it, and no record up to there is malformed; or it is
the peer of a seed, and every seed has one. -/
def Names (P : PeerId) : Discovery → Prop
  | .findNode target peerId answer => peerId ≠ target ∧
      ∃ closerPeers closestK, answer = .ok closerPeers ∧ kadFindNode closerPeers = .ok closestK ∧
        ∃ info ∈ closestK, info.id = P
  | .response additionals => ∃ before record after txt,
      additionals = before ++ some record :: after ∧
      (∀ earlier, some earlier ∈ before → ∃ txt, decodeTxt earlier = .ok txt) ∧
      decodeTxt record = .ok txt ∧ ∃ raddr ∈ txtAddrs txt, raddr.getLast? = some (.p2p P)
  | .seeded seeds =>
      (∀ seed ∈ seeds, ∃ raddr id, seed = .ok raddr ∧ raddr.getLast? = some (.p2p id)) ∧
      ∃ raddr, .ok raddr ∈ seeds ∧ raddr.getLast? = some (.p2p P)

end Discovery

/-! ### The loops that collect the addresses -/

theorem pushAddr_eq (peerAddrs : HashMap PeerId (List Multiaddr)) (id : PeerId)
    (raddr : Multiaddr) : pushAddr peerAddrs id raddr = peerAddrs.push (id, raddr) := by
  rw [pushAddr, HashMap.push]
  split
  · next addrs hget => rw [hget, Option.getD_some]
  · next hget => rw [hget, Option.getD_none, List.nil_append]

/-- What an address in a TXT record adds. -/
def txtEntry (raddr : Multiaddr) : Option (PeerId × Multiaddr) :=
  match raddr.getLast? with
  | some (.p2p id) => some (id, raddr.dropLast)
  | _ => none

/-- What a seed adds. -/
def seedEntry : Except String Multiaddr → Option (PeerId × Multiaddr)
  | .error _ => none
  | .ok raddr =>
    match raddr.getLast? with
    | some (.p2p id) => some (id, raddr)
    | _ => none

theorem txtEntry_eq_some_iff {raddr addr : Multiaddr} {id : PeerId} :
    txtEntry raddr = some (id, addr) ↔
      raddr.getLast? = some (.p2p id) ∧ raddr.dropLast = addr := by
  unfold txtEntry
  split
  · next id' hlast => simp [hlast]
  · next hlast => simpa using fun h => absurd h (hlast id)

theorem seedEntry_eq_some_iff {seed : Except String Multiaddr} {raddr : Multiaddr} {id : PeerId} :
    seedEntry seed = some (id, raddr) ↔ seed = .ok raddr ∧ raddr.getLast? = some (.p2p id) := by
  cases seed with
  | error err => simp [seedEntry]
  | ok raddr' =>
    rw [seedEntry]
    split
    · next id' hlast =>
      simp only [Option.some.injEq, Prod.mk.injEq, Except.ok.injEq]
      constructor
      · rintro ⟨rfl, rfl⟩
        exact ⟨rfl, hlast⟩
      · rintro ⟨rfl, h⟩
        rw [hlast] at h
        cases h
        exact ⟨rfl, rfl⟩
    · next hlast =>
      refine iff_of_false (by simp) ?_
      rintro ⟨h, h'⟩
      cases h
      exact hlast id h'

theorem txtPeers_eq [PeerText] (txt : String) :
    txtPeers txt = ((txtAddrs txt).filterMap txtEntry).foldl HashMap.push ∅ := by
  rw [txtPeers, List.foldl_filterMap]
  refine congrArg (List.foldl · ∅ (txtAddrs txt)) ?_
  funext peerAddrs raddr
  rw [txtEntry]
  split
  · exact pushAddr_eq ..
  · rfl

theorem seedPeers_eq_ok_iff {seeds : List (Except String Multiaddr)}
    {peerAddrs peerAddrs' : HashMap PeerId (List Multiaddr)} :
    seedPeers peerAddrs seeds = .ok peerAddrs' ↔ (∀ seed ∈ seeds, (seedEntry seed).isSome) ∧
      (seeds.filterMap seedEntry).foldl HashMap.push peerAddrs = peerAddrs' := by
  induction seeds generalizing peerAddrs with
  | nil => simp [seedPeers]
  | cons seed seeds ih =>
    cases seed with
    | error err => simp [seedPeers, seedEntry]
    | ok raddr =>
      rw [seedPeers, List.forall_mem_cons]
      split
      · next id hlast =>
        have hentry : seedEntry (.ok raddr) = some (id, raddr) :=
          seedEntry_eq_some_iff.2 ⟨rfl, hlast⟩
        rw [ih, pushAddr_eq, List.filterMap_cons_some hentry, List.foldl_cons, hentry]
        simp
      · next hlast =>
        have hentry : seedEntry (.ok raddr) = none := by
          rw [seedEntry]
          split
          · next id h => exact absurd h (hlast id)
          · rfl
        simp [hentry]

/-- The texts of the TXT records up to the first malformed one. -/
def readTxts : List (Option (List (List UInt8))) → List String
  | [] => []
  | none :: additionals => readTxts additionals
  | some record :: additionals =>
    match decodeTxt record with
    | .error _ => []
    | .ok txt => txt :: readTxts additionals

theorem handleResponse_fst [PeerText] (order : Shuffle (PeerId × List Multiaddr))
    (additionals : List (Option (List (List UInt8)))) : (handleResponse order additionals).1 =
      (readTxts additionals).flatMap fun txt => collected order (txtPeers txt) := by
  induction additionals with
  | nil => rfl
  | cons additional additionals ih =>
    cases additional with
    | none => exact ih
    | some record =>
      rw [handleResponse, readTxts]
      cases decodeTxt record with
      | error err => rfl
      | ok txt => exact congrArg (collected order (txtPeers txt) ++ ·) ih

/-- The first place in a list that has been reached. -/
theorem exists_split_cons_iff {α : Type*} {P Q : α → Prop} {a : α} {l : List α} :
    (∃ before b after, a :: l = before ++ b :: after ∧ (∀ e ∈ before, P e) ∧ Q b) ↔
      Q a ∨ P a ∧ ∃ before b after, l = before ++ b :: after ∧ (∀ e ∈ before, P e) ∧ Q b := by
  constructor
  · rintro ⟨before, b, after, he, hbefore, hb⟩
    cases before with
    | nil =>
      cases he
      exact .inl hb
    | cons _ before =>
      cases he
      rw [List.forall_mem_cons] at hbefore
      exact .inr ⟨hbefore.1, before, b, after, rfl, hbefore.2, hb⟩
  · rintro (ha | ⟨ha, before, b, after, rfl, hbefore, hb⟩)
    · exact ⟨[], a, l, rfl, by simp, ha⟩
    · exact ⟨a :: before, b, after, rfl, List.forall_mem_cons.2 ⟨ha, hbefore⟩, hb⟩

theorem mem_readTxts {additionals : List (Option (List (List UInt8)))} {txt : String} :
    txt ∈ readTxts additionals ↔ ∃ before additional after,
      additionals = before ++ additional :: after ∧
      (∀ earlier ∈ before, ∀ record ∈ earlier, ∃ txt, decodeTxt record = .ok txt) ∧
      ∃ record ∈ additional, decodeTxt record = .ok txt := by
  induction additionals with
  | nil => simp [readTxts]
  | cons additional additionals ih =>
    rw [exists_split_cons_iff, ← ih]
    cases additional with
    | none => simp [readTxts]
    | some record => cases hdecode : decodeTxt record <;> simp [readTxts, hdecode, eq_comm]

/-! ### The book afterwards -/

namespace RawMemoryPeerBook

/-- The loops over `insert_peer_info`. -/
def insertAll (book : RawMemoryPeerBook) (infos : List PeerInfo) : RawMemoryPeerBook :=
  infos.foldl (fun book info => (book.insert info).2) book

theorem insertAll_cons (book : RawMemoryPeerBook) (info : PeerInfo) (infos : List PeerInfo) :
    book.insertAll (info :: infos) = (book.insert info).2.insertAll infos := rfl

theorem get_insertAll_of_ne {infos : List PeerInfo} {peerId : PeerId}
    (h : ∀ info ∈ infos, info.id ≠ peerId) (book : RawMemoryPeerBook) :
    (book.insertAll infos).get peerId = book.get peerId := by
  induction infos generalizing book with
  | nil => rfl
  | cons info infos ih =>
    rw [List.forall_mem_cons] at h
    rw [insertAll_cons, ih h.2, get_insert, if_neg (Ne.symm h.1)]

theorem get_insertAll_of_mem {infos : List PeerInfo} (hnodup : (infos.map PeerInfo.id).Nodup)
    {info : PeerInfo} (hmem : info ∈ infos) (book : RawMemoryPeerBook) :
    (book.insertAll infos).get info.id = some { info with disappear := none } := by
  induction infos generalizing book with
  | nil => simp at hmem
  | cons info' infos ih =>
    rw [List.map_cons, List.nodup_cons] at hnodup
    rw [insertAll_cons]
    rcases List.mem_cons.1 hmem with rfl | hmem
    · have hother : ∀ info' ∈ infos, info'.id ≠ info.id := by
        intro info' hmem' he
        exact hnodup.1 (he ▸ List.mem_map_of_mem hmem')
      rw [get_insertAll_of_ne hother, get_insert, if_pos rfl]
    · exact ih hnodup.2 hmem _

end RawMemoryPeerBook

theorem nodup_collected (order : Shuffle (PeerId × List Multiaddr))
    (peerAddrs : HashMap PeerId (List Multiaddr)) :
    ((collected order peerAddrs).map PeerInfo.id).Nodup := by
  have hids : (collected order peerAddrs).map PeerInfo.id =
      (order.run peerAddrs.iter).map Prod.fst := by
    rw [collected, List.map_map]
    rfl
  rw [hids, ((order.perm peerAddrs.iter).map Prod.fst).nodup_iff]
  exact peerAddrs.nodup_iter

/-- **The book after the collected entries have been inserted**, in whichever order. -/
theorem get_insertAll_collected (order : Shuffle (PeerId × List Multiaddr))
    (peerAddrs : HashMap PeerId (List Multiaddr)) (book : RawMemoryPeerBook) (id : PeerId) :
    (book.insertAll (collected order peerAddrs)).get id =
      match peerAddrs.get id with
      | some addrs => some (.discovered id addrs)
      | none => book.get id := by
  cases hget : peerAddrs.get id with
  | some addrs =>
    have hmem : .discovered id addrs ∈ collected order peerAddrs :=
      List.mem_map.2 ⟨(id, addrs), order.mem_run.2 (HashMap.mem_iter.2 hget), rfl⟩
    exact RawMemoryPeerBook.get_insertAll_of_mem (nodup_collected order peerAddrs) hmem book
  | none =>
    refine RawMemoryPeerBook.get_insertAll_of_ne (fun info hmem he => ?_) book
    obtain ⟨⟨id', addrs⟩, hrun, rfl⟩ := List.mem_map.1 hmem
    have hsome := HashMap.mem_iter.1 (order.mem_run.1 hrun)
    obtain rfl : id' = id := he
    rw [hget] at hsome
    cases hsome

/-! ### The peers that are inserted -/

section

variable {P : PeerId}

theorem mem_collected {order : Shuffle (PeerId × List Multiaddr)}
    {peerAddrs : HashMap PeerId (List Multiaddr)} :
    (∃ info ∈ collected order peerAddrs, info.id = P) ↔ ∃ addrs, peerAddrs.get P = some addrs := by
  constructor
  · rintro ⟨info, hmem, rfl⟩
    obtain ⟨⟨id, addrs⟩, he, rfl⟩ := List.mem_map.1 hmem
    exact ⟨addrs, HashMap.mem_iter.1 (order.mem_run.1 he)⟩
  · rintro ⟨addrs, hget⟩
    exact ⟨.discovered P addrs,
      List.mem_map.2 ⟨(P, addrs), order.mem_run.2 (HashMap.mem_iter.2 hget), rfl⟩, rfl⟩

theorem exists_get_txtPeers [PeerText] {txt : String} :
    (∃ addrs, (txtPeers txt).get P = some addrs) ↔
      ∃ raddr ∈ txtAddrs txt, raddr.getLast? = some (.p2p P) := by
  rw [txtPeers_eq, HashMap.exists_get_foldl_push]
  simp only [HashMap.get_empty, reduceCtorEq, exists_false, false_or, List.mem_filterMap,
    txtEntry_eq_some_iff]
  constructor
  · rintro ⟨addr, raddr, hmem, hlast, -⟩
    exact ⟨raddr, hmem, hlast⟩
  · rintro ⟨raddr, hmem, hlast⟩
    exact ⟨_, raddr, hmem, hlast, rfl⟩

/-- `handle_response` inserts the peers of the TXT records before the first malformed one. -/
theorem mem_handleResponse [PeerText] {order : Shuffle (PeerId × List Multiaddr)}
    {additionals : List (Option (List (List UInt8)))} :
    (∃ info ∈ (handleResponse order additionals).1, info.id = P) ↔
      ∃ before record after txt, additionals = before ++ some record :: after ∧
        (∀ earlier, some earlier ∈ before → ∃ txt, decodeTxt earlier = .ok txt) ∧
        decodeTxt record = .ok txt ∧ ∃ raddr ∈ txtAddrs txt, raddr.getLast? = some (.p2p P) := by
  have hread : (∃ info ∈ (handleResponse order additionals).1, info.id = P) ↔
      ∃ txt ∈ readTxts additionals, ∃ raddr ∈ txtAddrs txt, raddr.getLast? = some (.p2p P) := by
    simp only [handleResponse_fst, List.mem_flatMap]
    constructor
    · rintro ⟨info, ⟨txt, htxt, hmem⟩, hid⟩
      exact ⟨txt, htxt, exists_get_txtPeers.1 (mem_collected.1 ⟨info, hmem, hid⟩)⟩
    · rintro ⟨txt, htxt, hnamed⟩
      have hentry : ∃ info ∈ collected order (txtPeers txt), info.id = P :=
        mem_collected.2 (exists_get_txtPeers.2 hnamed)
      obtain ⟨info, hmem, hid⟩ := hentry
      exact ⟨info, ⟨txt, htxt, hmem⟩, hid⟩
  rw [hread]
  constructor
  · rintro ⟨txt, htxt, hnamed⟩
    obtain ⟨before, _, after, rfl, hbefore, record, rfl, hdecode⟩ := mem_readTxts.1 htxt
    exact ⟨before, record, after, txt, rfl, fun earlier hmem => hbefore _ hmem earlier rfl,
      hdecode, hnamed⟩
  · rintro ⟨before, record, after, txt, rfl, hbefore, hdecode, hnamed⟩
    refine ⟨txt, mem_readTxts.2 ⟨before, _, after, rfl, ?_, record, rfl, hdecode⟩, hnamed⟩
    rintro _ hmem earlier rfl
    exact hbefore earlier hmem

theorem exists_get_seedPeers {seeds : List (Except String Multiaddr)}
    {peerAddrs : HashMap PeerId (List Multiaddr)} (h : seedPeers ∅ seeds = .ok peerAddrs) :
    (∃ addrs, peerAddrs.get P = some addrs) ↔
      ∃ raddr, .ok raddr ∈ seeds ∧ raddr.getLast? = some (.p2p P) := by
  obtain ⟨-, rfl⟩ := seedPeers_eq_ok_iff.1 h
  rw [HashMap.exists_get_foldl_push]
  simp only [HashMap.get_empty, reduceCtorEq, exists_false, false_or, List.mem_filterMap,
    seedEntry_eq_some_iff]
  constructor
  · rintro ⟨raddr, seed, hmem, rfl, hlast⟩
    exact ⟨raddr, hmem, hlast⟩
  · rintro ⟨raddr, hmem, hlast⟩
    exact ⟨raddr, _, hmem, rfl, hlast⟩

theorem forall_seedEntry_iff {seeds : List (Except String Multiaddr)} :
    (∀ seed ∈ seeds, (seedEntry seed).isSome) ↔
      ∀ seed ∈ seeds, ∃ raddr id, seed = .ok raddr ∧ raddr.getLast? = some (.p2p id) := by
  refine forall₂_congr fun seed _ => ?_
  simp only [Option.isSome_iff_exists, Prod.exists, seedEntry_eq_some_iff]
  exact exists_comm

/-- The entries that `with_seeds` inserts are for the peers of the seeds. -/
theorem mem_withSeeds {order : Shuffle (PeerId × List Multiaddr)}
    {seeds : List (Except String Multiaddr)} {infos : List PeerInfo}
    (h : withSeeds order seeds = .ok infos) :
    (∃ info ∈ infos, info.id = P) ↔
      ∃ raddr, .ok raddr ∈ seeds ∧ raddr.getLast? = some (.p2p P) := by
  cases hseeds : seedPeers ∅ seeds with
  | error err =>
    rw [withSeeds, hseeds] at h
    cases h
  | ok peerAddrs =>
    rw [withSeeds, hseeds] at h
    cases h
    rw [mem_collected, exists_get_seedPeers hseeds]

end

/-- **A discovery inserts an entry for exactly the peers it names.** -/
theorem exists_mem_infos_iff [Libp2p] [PeerText] {order : Shuffle (PeerId × List Multiaddr)}
    {d : Discovery} {P : PeerId} : (∃ info ∈ d.infos order, info.id = P) ↔ d.Names P := by
  cases d with
  | findNode target peerId answer =>
    simp only [Discovery.infos, Discovery.Names, FindNode.route]
    by_cases htarget : peerId = target
    · simp [htarget]
    · cases answer with
      | error err => simp [htarget, bind, Except.bind]
      | ok closerPeers =>
        cases hfind : kadFindNode closerPeers with
        | error err => simp [htarget, hfind, bind, Except.bind]
        | ok closestK => simp [htarget, hfind, bind, Except.bind, pure, Except.pure]
  | response additionals => exact mem_handleResponse
  | seeded seeds =>
    rw [Discovery.Names, ← forall_seedEntry_iff, Discovery.infos]
    cases hseeds : seedPeers ∅ seeds with
    | error err =>
      have hno : ¬ ∀ seed ∈ seeds, (seedEntry seed).isSome := by
        intro hall
        rw [seedPeers_eq_ok_iff.2 ⟨hall, rfl⟩] at hseeds
        cases hseeds
      simp [withSeeds, hseeds, Except.map, hno]
    | ok peerAddrs =>
      rw [and_iff_right (seedPeers_eq_ok_iff.1 hseeds).1, ← exists_get_seedPeers hseeds]
      simpa [withSeeds, hseeds, Except.map] using mem_collected

end XStack
