import XStack.Book.ReverseLookup
import XStack.Multiaddr

/-!
# Choosing relay addresses

`choose_nat_peers` goes through the index from addresses to peers, in the order of the hash map, and
collects the addresses that end with `/p2p-circuit`, each with the id of its peer.  It stops when
the limit is reached, but asks for this only after it has added an address: with the limit 0 it
never stops (`chosen_without_limit`).

It recognises the addresses by the end of their encoding, as `CircuitTransport::multiaddr_hint`
does, and so takes others for relay addresses too.

## Main definitions

* `RawMemoryPeerBook.natPeer` : the address that an entry of the index contributes.
* `RawMemoryPeerBook.Mistaken` : an entry contributes an address without being one of a relay.
* `RawMemoryPeerBook.ChoosesRelays` : what the function is meant to do.

## Main results

* `chooseNatPeers_eq` : what it does.
* `choose_nat_peers_iff` : when the two agree.
-/

namespace XStack

/-- `Multiaddr::with_p2p`. -/
class MultiaddrWithP2p where
  /-- The address with the peer id at its end, or the unmodified address as an error. -/
  withP2p : Multiaddr → PeerId → Except Multiaddr Multiaddr

open MultiaddrWithP2p (withP2p)

/-- What is documented of `with_p2p`: it appends the peer id unless the address ends with it, and
fails if the address ends with a different one. -/
class MultiaddrWithP2p.Lawful [MultiaddrWithP2p] : Prop where
  append : ∀ (addr : Multiaddr) id, (∀ id', addr.getLast? ≠ some (.p2p id')) →
    withP2p addr id = .ok (addr ++ [.p2p id])
  keep : ∀ (addr : Multiaddr) id, addr.getLast? = some (.p2p id) → withP2p addr id = .ok addr
  refuse : ∀ (addr : Multiaddr) id id', addr.getLast? = some (.p2p id') → id' ≠ id →
    withP2p addr id = .error addr

namespace RawMemoryPeerBook

/-- The number of relay addresses in the index. -/
def relayCount (book : RawMemoryPeerBook) : ℕ :=
  book.peerAddrs.iter.countP fun e => e.1.getLast? == some .p2pCircuit

theorem relayCount_pos_iff {book : RawMemoryPeerBook} : 0 < book.relayCount ↔
    ∃ addr id, book.peerAddrs.get addr = some id ∧ addr.getLast? = some .p2pCircuit := by
  rw [relayCount, List.countP_pos_iff]
  constructor
  · rintro ⟨⟨addr, id⟩, hiter, hlast⟩
    exact ⟨addr, id, HashMap.mem_iter.1 hiter, beq_iff_eq.1 hlast⟩
  · rintro ⟨addr, id, hget, hlast⟩
    exact ⟨(addr, id), HashMap.mem_iter.2 hget, beq_iff_eq.2 hlast⟩

theorem exists_order (book : RawMemoryPeerBook) (first : List (Multiaddr × PeerId))
    (hnodup : first.Nodup) (hget : ∀ e ∈ first, book.peerAddrs.get e.1 = some e.2) :
    ∃ (order : Shuffle (Multiaddr × PeerId)) (rest : List (Multiaddr × PeerId)),
      order.run book.peerAddrs.iter = first ++ rest := by
  obtain ⟨first', hfirst, hsub⟩ := List.subperm_of_subset hnodup fun e he =>
    HashMap.mem_iter.2 (hget e he)
  obtain ⟨rest, hrest⟩ := hsub.exists_perm_append
  have hperm : (first ++ rest).Perm book.peerAddrs.iter :=
    (hrest.trans (hfirst.append_right rest)).symm
  exact ⟨.single _ _ hperm, rest, Shuffle.single_run _ _ hperm⟩

variable [MultiaddrBytes] [MultiaddrWithP2p]

/-- The loop of `choose_nat_peers` over the index, with the addresses collected so far. -/
def collectNatPeers (limits : ℕ) : List (Multiaddr × PeerId) → List Multiaddr → List Multiaddr
  | [], raddrs => raddrs
  | (addr, id) :: peerAddrs, raddrs =>
    if addr.endsWith [.p2pCircuit] then
      match withP2p addr id with
      | .ok addr =>
        let raddrs := raddrs ++ [addr]
        if raddrs.length = limits then raddrs else collectNatPeers limits peerAddrs raddrs
      | .error _ => collectNatPeers limits peerAddrs raddrs
    else collectNatPeers limits peerAddrs raddrs

/-- `MemoryPeerBook::choose_nat_peers`; the order is the one of the hash map. -/
def chooseNatPeers (book : RawMemoryPeerBook) (order : Shuffle (Multiaddr × PeerId))
    (limits : ℕ) : List Multiaddr :=
  collectNatPeers limits (order.run book.peerAddrs.iter) []

/-- The address that an entry of the index contributes. -/
def natPeer (e : Multiaddr × PeerId) : Option Multiaddr :=
  if e.1.endsWith [.p2pCircuit] then (withP2p e.1 e.2).toOption else none

/-- The loop collects the contributions up to the limit, if it is not there already. -/
theorem collectNatPeers_eq (limits : ℕ) (peerAddrs : List (Multiaddr × PeerId))
    (raddrs : List Multiaddr) : collectNatPeers limits peerAddrs raddrs =
      raddrs ++ if raddrs.length < limits
        then (peerAddrs.filterMap natPeer).take (limits - raddrs.length)
        else peerAddrs.filterMap natPeer := by
  induction peerAddrs generalizing raddrs with
  | nil => simp [collectNatPeers]
  | cons e peerAddrs ih =>
    obtain ⟨addr, id⟩ := e
    by_cases hends : addr.endsWith [.p2pCircuit] = true
    · cases hwith : withP2p addr id with
      | error e =>
        have hnone : natPeer (addr, id) = none := by simp [natPeer, hends, hwith, Except.toOption]
        rw [collectNatPeers, if_pos hends, hwith, List.filterMap_cons_none hnone]
        exact ih raddrs
      | ok addr' =>
        have hsome : natPeer (addr, id) = some addr' := by
          simp [natPeer, hends, hwith, Except.toOption]
        rw [collectNatPeers, if_pos hends, hwith, List.filterMap_cons_some hsome]
        simp only [List.length_append, List.length_singleton]
        split_ifs with hlimit hbelow habove
        · -- the limit is reached with this address
          simp [show limits - raddrs.length = 1 by omega]
        · omega
        · rw [ih, List.append_assoc, List.length_append, List.length_singleton, if_pos (by omega)]
          have hsucc : limits - raddrs.length = limits - (raddrs.length + 1) + 1 := by omega
          rw [hsucc, List.take_succ_cons, List.singleton_append]
        · rw [ih, List.append_assoc, List.length_append, List.length_singleton, if_neg (by omega),
            List.singleton_append]
    · have hnone : natPeer (addr, id) = none := if_neg hends
      rw [collectNatPeers, if_neg hends, List.filterMap_cons_none hnone]
      exact ih raddrs

/-- **What `choose_nat_peers` does**: it collects the contributions of the index up to the limit,
and all of them if the limit is 0. -/
theorem chooseNatPeers_eq (book : RawMemoryPeerBook) (order : Shuffle (Multiaddr × PeerId))
    (limits : ℕ) : book.chooseNatPeers order limits =
      if 0 < limits then ((order.run book.peerAddrs.iter).filterMap natPeer).take limits
      else (order.run book.peerAddrs.iter).filterMap natPeer := by
  rw [chooseNatPeers, collectNatPeers_eq]
  rfl

theorem prefix_chosen {book : RawMemoryPeerBook} {limits : ℕ}
    {order : Shuffle (Multiaddr × PeerId)} {first rest : List Multiaddr}
    (h : (order.run book.peerAddrs.iter).filterMap natPeer = first ++ rest)
    (hlimits : limits = 0 ∨ first.length ≤ limits) :
    first <+: book.chooseNatPeers order limits := by
  rw [chooseNatPeers_eq, h]
  split_ifs with hpos
  · exact List.prefix_take_iff.2 ⟨List.prefix_append _ _, hlimits.resolve_left (Nat.ne_of_gt hpos)⟩
  · exact List.prefix_append _ _

/-! ### The contributions -/

/-- An entry of the index contributes an address, although it is not the one of a relay: the
encoding of its last component ends like the one of `p2p-circuit`, and this is not the id of another
peer. -/
def Mistaken (book : RawMemoryPeerBook) (addr : Multiaddr) (id : PeerId) : Prop :=
  book.peerAddrs.get addr = some id ∧ addr.getLast? ≠ some .p2pCircuit ∧
    addr.endsWith [.p2pCircuit] = true ∧ ∀ id', addr.getLast? = some (.p2p id') → id' = id

/-- **What `choose_nat_peers` is meant to do**, in whatever order it goes through the index: it
chooses as many relay addresses as the limit allows, no two of them the same. -/
def ChoosesRelays (book : RawMemoryPeerBook) (limits : ℕ) : Prop :=
  ∀ order, (book.chooseNatPeers order limits).length = min limits book.relayCount ∧
    (book.chooseNatPeers order limits).Nodup ∧
    ∀ raddr ∈ book.chooseNatPeers order limits, ∃ addr id,
      book.peerAddrs.get addr = some id ∧ addr.getLast? = some .p2pCircuit ∧
        raddr = addr ++ [.p2p id]

variable {book : RawMemoryPeerBook} {e : Multiaddr × PeerId} {addr raddr : Multiaddr} {id : PeerId}
  {limits : ℕ} [MultiaddrWithP2p.Lawful]

/-- A mistaken address contributes itself with the peer id, or itself if it ends with it. -/
theorem natPeer_of_mistaken (h : book.Mistaken addr id) :
    natPeer (addr, id) = some (addr ++ [.p2p id]) ∧ addr.getLast? ≠ some (.p2p id) ∨
      natPeer (addr, id) = some addr ∧ addr.getLast? = some (.p2p id) := by
  obtain ⟨-, -, hends, hsame⟩ := h
  rw [natPeer, if_pos hends]
  by_cases hlast : addr.getLast? = some (.p2p id)
  · rw [MultiaddrWithP2p.Lawful.keep _ _ hlast]
    exact .inr ⟨rfl, hlast⟩
  · rw [MultiaddrWithP2p.Lawful.append _ _ fun id' h => hlast (hsame id' h ▸ h)]
    exact .inl ⟨rfl, hlast⟩

theorem relay_or_mistaken (hget : book.peerAddrs.get addr = some id)
    (h : natPeer (addr, id) = some raddr) :
    addr.getLast? = some .p2pCircuit ∨ book.Mistaken addr id := by
  rw [or_iff_not_imp_left]
  intro hrelay
  rw [natPeer] at h
  split_ifs at h with hends
  refine ⟨hget, hrelay, hends, fun id' hlast => ?_⟩
  by_contra hne
  rw [MultiaddrWithP2p.Lawful.refuse _ _ _ hlast hne] at h
  cases h

variable [MultiaddrBytes.Lawful]

theorem natPeer_of_relay (hrelay : e.1.getLast? = some .p2pCircuit) :
    natPeer e = some (e.1 ++ [.p2p e.2]) := by
  have hends : e.1.endsWith [.p2pCircuit] = true := by
    obtain ⟨hop, hhop⟩ := List.getLast?_eq_some_iff.1 hrelay
    exact Multiaddr.endsWith_p2pCircuit_iff.2 ⟨hop, _, hhop, List.suffix_rfl⟩
  have hwith : withP2p e.1 e.2 = .ok (e.1 ++ [.p2p e.2]) :=
    MultiaddrWithP2p.Lawful.append _ _ fun id' h => by
      rw [hrelay] at h
      cases h
  rw [natPeer, if_pos hends, hwith]
  rfl

/-- A mistaken address is one that is chosen for a relay anyway. -/
def Covered (book : RawMemoryPeerBook) (addr : Multiaddr) (id : PeerId) : Prop :=
  ∃ relay, book.peerAddrs.get relay = some id ∧ relay.getLast? = some .p2pCircuit ∧
    addr = relay ++ [.p2p id]

theorem mem_contributions (order : Shuffle (Multiaddr × PeerId))
    (hcovered : ∀ addr id, book.Mistaken addr id → book.Covered addr id)
    (hmem : raddr ∈ (order.run book.peerAddrs.iter).filterMap natPeer) :
    ∃ addr id, book.peerAddrs.get addr = some id ∧ addr.getLast? = some .p2pCircuit ∧
      raddr = addr ++ [.p2p id] := by
  obtain ⟨⟨addr, id⟩, hiter, hsome⟩ := List.mem_filterMap.1 hmem
  have hget := HashMap.mem_iter.1 (order.mem_run.1 hiter)
  rcases relay_or_mistaken hget hsome with hrelay | hmistaken
  · rw [natPeer_of_relay hrelay] at hsome
    exact ⟨addr, id, hget, hrelay, (Option.some.inj hsome).symm⟩
  · obtain ⟨relay, hget', hrelay, haddr⟩ := hcovered addr id hmistaken
    have hlast : addr.getLast? = some (.p2p id) := by rw [haddr, List.getLast?_concat]
    rcases natPeer_of_mistaken hmistaken with ⟨-, hne⟩ | ⟨hself, -⟩
    · exact absurd hlast hne
    · rw [hself] at hsome
      exact ⟨relay, id, hget', hrelay, (Option.some.inj hsome).symm.trans haddr⟩

theorem contributions_of_none (order : Shuffle (Multiaddr × PeerId))
    (hnone : ∀ addr id, ¬ book.Mistaken addr id) :
    ((order.run book.peerAddrs.iter).filterMap natPeer).length = book.relayCount ∧
      ((order.run book.peerAddrs.iter).filterMap natPeer).Nodup := by
  have hrelay : ∀ e ∈ order.run book.peerAddrs.iter, ∀ raddr, natPeer e = some raddr →
      e.1.getLast? = some .p2pCircuit := fun e he raddr hsome =>
    (relay_or_mistaken (HashMap.mem_iter.1 (order.mem_run.1 he)) hsome).resolve_right (hnone _ _)
  constructor
  · rw [List.length_filterMap_eq_countP, relayCount,
      ← (order.perm book.peerAddrs.iter).countP_eq]
    refine List.countP_congr fun e he => ?_
    rw [Option.isSome_iff_exists, beq_iff_eq]
    exact ⟨fun ⟨raddr, hsome⟩ => hrelay e he raddr hsome, fun h => ⟨_, natPeer_of_relay h⟩⟩
  · have hnodup : (order.run book.peerAddrs.iter).Nodup :=
      (order.perm _).nodup_iff.2 (HashMap.nodup_iter _).of_map
    rw [List.Nodup, List.pairwise_filterMap]
    refine List.Pairwise.imp_of_mem ?_ hnodup
    intro e e' he he' hne raddr hsome raddr' hsome' heq
    rw [natPeer_of_relay (hrelay e he _ hsome)] at hsome
    rw [natPeer_of_relay (hrelay e' he' _ hsome'), ← heq, ← hsome] at hsome'
    -- the address and the peer id can be read off a contribution
    obtain ⟨haddr, hid⟩ := List.append_inj' (Option.some.inj hsome') rfl
    exact hne (Prod.ext haddr.symm (by simpa using hid.symm))

/-- If relay addresses are chosen up to the limit, every mistaken address is one of them, and there
is no room for both. -/
theorem ChoosesRelays.covered (hchooses : book.ChoosesRelays limits)
    (hmistaken : book.Mistaken addr id) : limits = 1 ∧ book.Covered addr id := by
  have hcovered : limits ≠ 0 ∧ book.Covered addr id := by
    -- the mistaken address comes first
    obtain ⟨order, rest, horder⟩ := exists_order book [(addr, id)]
      (List.nodup_singleton _) (by simpa using hmistaken.1)
    have hfirst : ∀ {raddr}, natPeer (addr, id) = some raddr →
        raddr ∈ book.chooseNatPeers order limits := by
      intro raddr hsome
      have hsplit : (order.run book.peerAddrs.iter).filterMap natPeer =
          [raddr] ++ rest.filterMap natPeer := by
        rw [horder, List.filterMap_append, List.filterMap_cons_some hsome, List.filterMap_nil]
      have hlimits : limits = 0 ∨ [raddr].length ≤ limits := by
        rw [List.length_singleton]
        omega
      exact (prefix_chosen hsplit hlimits).subset (List.mem_singleton_self raddr)
    obtain ⟨hlength, -, hshape⟩ := hchooses order
    refine ⟨?_, ?_⟩
    · rintro rfl
      rw [Nat.zero_min, List.length_eq_zero_iff] at hlength
      rw [hlength] at hfirst
      rcases natPeer_of_mistaken hmistaken with ⟨hsome, -⟩ | ⟨hsome, -⟩
      · cases hfirst hsome
      · cases hfirst hsome
    · rcases natPeer_of_mistaken hmistaken with ⟨hsome, -⟩ | ⟨hsome, hlast⟩
      · obtain ⟨relay, id', -, hrelay, haddr⟩ := hshape _ (hfirst hsome)
        rw [(List.append_inj' haddr rfl).1] at hmistaken
        exact absurd hrelay hmistaken.2.1
      · obtain ⟨relay, id', hget, hrelay, haddr⟩ := hshape _ (hfirst hsome)
        rw [haddr, List.getLast?_concat] at hlast
        cases hlast
        exact ⟨relay, hget, hrelay, haddr⟩
  obtain ⟨hzero, relay, hget, hrelay, haddr⟩ := hcovered
  refine ⟨?_, relay, hget, hrelay, haddr⟩
  by_contra hone
  -- the mistaken address comes first, and the relay address that it stands for comes second
  have hne : addr ≠ relay := fun heq => hmistaken.2.1 (heq ▸ hrelay)
  obtain ⟨order, rest, horder⟩ := exists_order book [(addr, id), (relay, id)]
    (by simp [hne]) (by simp [hmistaken.1, hget])
  have hself : natPeer (addr, id) = some addr := by
    rcases natPeer_of_mistaken hmistaken with ⟨-, hlast⟩ | ⟨hself, -⟩
    · exact absurd (by rw [haddr, List.getLast?_concat]) hlast
    · exact hself
  have hsecond : natPeer (relay, id) = some addr := by rw [natPeer_of_relay hrelay, haddr]
  have hsplit : (order.run book.peerAddrs.iter).filterMap natPeer =
      [addr, addr] ++ rest.filterMap natPeer := by
    rw [horder, List.filterMap_append, List.filterMap_cons_some hself,
      List.filterMap_cons_some hsecond, List.filterMap_nil]
  have hlimits : [addr, addr].length ≤ limits := by
    simp only [List.length_cons, List.length_nil]
    omega
  have htwice := (hchooses order).2.1.sublist (prefix_chosen hsplit (.inr hlimits)).sublist
  simp at htwice

theorem mem_contributions_of_relay (order : Shuffle (Multiaddr × PeerId))
    (hget : book.peerAddrs.get addr = some id) (hrelay : addr.getLast? = some .p2pCircuit) :
    addr ++ [.p2p id] ∈ (order.run book.peerAddrs.iter).filterMap natPeer :=
  List.mem_filterMap.2 ⟨_, order.mem_run.2 (HashMap.mem_iter.2 hget), natPeer_of_relay hrelay⟩

theorem ChoosesRelays.relayCount_eq_zero (hchooses : book.ChoosesRelays 0) :
    book.relayCount = 0 := by
  by_contra hcount
  obtain ⟨addr, id, hget, hrelay⟩ := relayCount_pos_iff.1 (Nat.pos_of_ne_zero hcount)
  have hnil : book.chooseNatPeers .id 0 = [] :=
    List.length_eq_zero_iff.1 ((hchooses .id).1.trans (Nat.zero_min _))
  rw [chooseNatPeers_eq, if_neg (Nat.lt_irrefl 0)] at hnil
  have hmem := mem_contributions_of_relay .id hget hrelay
  rw [hnil] at hmem
  cases hmem

theorem choosesRelays_one (hcovered : ∀ addr id, book.Mistaken addr id → book.Covered addr id) :
    book.ChoosesRelays 1 := by
  intro order
  rw [chooseNatPeers_eq, if_pos Nat.one_pos]
  refine ⟨?_, ?_, fun raddr hmem => mem_contributions order hcovered (List.mem_of_mem_take hmem)⟩
  · have hpos : 0 < ((order.run book.peerAddrs.iter).filterMap natPeer).length ↔
        0 < book.relayCount := by
      rw [relayCount_pos_iff, List.length_pos_iff_exists_mem]
      constructor
      · rintro ⟨raddr, hmem⟩
        obtain ⟨addr, id, hget, hrelay, -⟩ := mem_contributions order hcovered hmem
        exact ⟨addr, id, hget, hrelay⟩
      · rintro ⟨addr, id, hget, hrelay⟩
        exact ⟨_, mem_contributions_of_relay order hget hrelay⟩
    rw [List.length_take]
    omega
  · cases (order.run book.peerAddrs.iter).filterMap natPeer <;> simp

theorem choosesRelays_of_none (hnone : ∀ addr id, ¬ book.Mistaken addr id)
    (hzero : limits = 0 → book.relayCount = 0) : book.ChoosesRelays limits := by
  intro order
  obtain ⟨hlength, hnodup⟩ := contributions_of_none order hnone
  have hshape := fun raddr (hmem : raddr ∈ (order.run book.peerAddrs.iter).filterMap natPeer) =>
    mem_contributions order (fun addr id h => absurd h (hnone addr id)) hmem
  rw [chooseNatPeers_eq]
  split_ifs with hpos
  · refine ⟨?_, hnodup.sublist (List.take_sublist _ _), fun raddr hmem =>
      hshape raddr (List.mem_of_mem_take hmem)⟩
    rw [List.length_take, hlength]
  · refine ⟨?_, hnodup, hshape⟩
    rw [hlength, hzero (Nat.eq_zero_of_not_pos hpos), Nat.min_zero]

/-- **When `choose_nat_peers` chooses relay addresses up to its limit**: if and only if the limit is
not 0, or there are no relay addresses, and there are no mistaken addresses, or the limit is 1 and
every mistaken one is covered. -/
theorem choose_nat_peers_iff (book : RawMemoryPeerBook) (limits : ℕ) :
    book.ChoosesRelays limits ↔ (limits = 0 → book.relayCount = 0) ∧
      ∀ addr id, book.Mistaken addr id → limits = 1 ∧ book.Covered addr id := by
  constructor
  · intro hchooses
    refine ⟨?_, fun addr id hmistaken => hchooses.covered hmistaken⟩
    rintro rfl
    exact hchooses.relayCount_eq_zero
  · rintro ⟨hzero, hmistaken⟩
    by_cases hone : limits = 1
    · subst hone
      exact choosesRelays_one fun addr id h => (hmistaken addr id h).2
    · exact choosesRelays_of_none (fun addr id h => hone (hmistaken addr id h).1) hzero

end RawMemoryPeerBook

section Sample

open RawMemoryPeerBook

/-- `with_p2p`, as it is documented. -/
@[reducible] def MultiaddrWithP2p.documented : MultiaddrWithP2p where
  withP2p addr id := match addr.getLast? with
    | some (.p2p id') => if id' = id then .ok addr else .error addr
    | _ => .ok (addr ++ [.p2p id])

theorem MultiaddrWithP2p.documented_lawful : @MultiaddrWithP2p.Lawful documented := by
  refine @MultiaddrWithP2p.Lawful.mk documented (fun addr id h => ?_) (fun addr id h => ?_)
    fun addr id id' h hne => ?_
  · cases hlast : addr.getLast? with
    | none => simp only [withP2p, hlast]
    | some p => cases p <;> first | exact absurd hlast (h _) | simp only [withP2p, hlast]
  · simp only [withP2p, h, ↓reduceIte]
  · simp only [withP2p, h, if_neg hne]

attribute [local instance] MultiaddrBytes.multiformats MultiaddrBytes.multiformats_lawful
  MultiaddrWithP2p.documented MultiaddrWithP2p.documented_lawful

/-- A peer that is reached through a relay. -/
def relayed : PeerInfo :=
  ⟨⟨[0x00, 0x01, 0x01]⟩, [[.ip4 0x0a000002, .tcp 4001, .p2pCircuit]], [], none, none⟩

/-- The peer is the only one in the book. -/
def relayedBook : RawMemoryPeerBook := (PeerBookOp.insert relayed).apply .default

theorem choose_nat_peers_iff_relayed : relayedBook.ChoosesRelays 1 := by
  refine (choose_nat_peers_iff relayedBook 1).2 ⟨fun h => absurd h (by decide), ?_⟩
  rintro addr id ⟨hget, hlast, -⟩
  have hiter := HashMap.mem_iter.2 hget
  have hentries : relayedBook.peerAddrs.iter =
      [([.ip4 0x0a000002, .tcp 4001, .p2pCircuit], relayed.id)] := rfl
  rw [hentries, List.mem_singleton] at hiter
  cases hiter
  exact absurd rfl hlast

/-- With the limit 0, all relay addresses are chosen. -/
theorem chosen_without_limit :
    ¬ ∀ (book : RawMemoryPeerBook) (limits : ℕ), peerBookLts.Reachable book →
      book.ChoosesRelays limits := by
  intro hall
  have hlength := (hall relayedBook 0 ((Lts.Reachable.start rfl).snoc rfl) .id).1
  exact absurd hlength (by decide)

end Sample

end XStack
