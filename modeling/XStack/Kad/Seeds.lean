import XStack.Data.Except
import XStack.Kad.Router

/-!
# The seeds of a router

`with_seeds` first checks and groups all its seeds, and only then touches anything: a seed without a
peer id fails the call before the routing table is bound.  Otherwise the peer book afterwards holds
an entry for the peer of every seed, with the seeds of this peer and nothing else
(`with_seeds_exact`).

The panics of the routing table are part of the code here, and `SeedFailure` tells them from the
errors it returns.

## Main definitions

* `KademliaOptions.withSeeds` : the code.
* `seedsOf` : the seeds of a peer.

## Main results

* `with_seeds_exact`.
-/

namespace XStack

/-- Why a call of `with_seeds` has not built a router. -/
inductive SeedFailure where
  /-- It has returned an error. -/
  | returned (err : KadError)
  /-- It has panicked. -/
  | panicked (panic : Panic)
  deriving DecidableEq, Repr

/-- What `with_seeds` can change: the peer book of a switch, and the routing tables bound to it. -/
structure SwitchTables where
  /-- `peer_book`. -/
  peerBook : RawMemoryPeerBook
  /-- The routing tables with their ping tasks. -/
  tables : List (KadState 20)

/-- Code that can change them; what it has changed remains when it fails. -/
abbrev Seeding := EStateM SeedFailure SwitchTables

/-- The result of a computation that does not touch the switch. -/
def Seeding.ofExcept {ε α : Type} (failure : ε → SeedFailure) : Except ε α → Seeding α
  | .ok a => pure a
  | .error e => throw (failure e)

/-- The router of a new routing table. -/
def RouterState.new (table : KBucketTable 20) (peerBook : RawMemoryPeerBook) : RouterState :=
  ⟨⟨table, []⟩, [], [], peerBook, [], [], none⟩

section

variable [Sha256]

/-- The body of the second loop of `with_seeds`, as code that changes a router. -/
def RouterState.seedOne (info : PeerInfo) : EStateM Panic RouterState Unit := fun s =>
  match s.insertSeed info with
  | .ok s' => .ok () s'
  | .error panic => .error panic s

/-- The second loop of `with_seeds`. -/
def RouterState.insertSeeds (infos : List PeerInfo) : EStateM Panic RouterState Unit :=
  infos.forM RouterState.seedOne

/-- Code that works on a new routing table and on the peer book. -/
def Seeding.onRouter (table : KBucketTable 20) (code : EStateM Panic RouterState Unit) :
    Seeding RouterState := fun s =>
  match code (.new table s.peerBook) with
  | .ok () router => .ok router ⟨router.peerBook, s.tables ++ [router.kad]⟩
  | .error panic router => .error (.panicked panic) ⟨router.peerBook, s.tables ++ [router.kad]⟩

/-- `KademliaOptions::with_seeds`. -/
def KademliaOptions.withSeeds (order : Shuffle (PeerId × List Multiaddr)) (localId : PeerId)
    (seeds : List (Except String Multiaddr)) : Seeding RouterState := do
  let peerAddrs ← .ofExcept .returned (seedPeers ∅ seeds)
  let table ← .ofExcept .panicked (KBucketTable.bind localId)
  .onRouter table (RouterState.insertSeeds (collected order peerAddrs))

end

/-- Every seed ends in a peer id. -/
def SeedsValid (seeds : List (Except String Multiaddr)) : Prop :=
  ∀ seed ∈ seeds, ∃ raddr id, seed = .ok raddr ∧ raddr.getLast? = some (.p2p id)

/-- The seeds that end in the id of a peer. -/
def seedsOf (id : PeerId) (seeds : List (Except String Multiaddr)) : List Multiaddr :=
  (seeds.filterMap Except.toOption).filter fun raddr => raddr.getLast? == some (.p2p id)

/-! ### The first loop -/

section

variable {seeds : List (Except String Multiaddr)} {peerAddrs : HashMap PeerId (List Multiaddr)}

theorem valuesOf_seedEntry (id : PeerId) (seeds : List (Except String Multiaddr)) :
    HashMap.valuesOf id (seeds.filterMap seedEntry) = seedsOf id seeds := by
  rw [HashMap.valuesOf, seedsOf, List.filterMap_filterMap, List.filter_filterMap]
  refine congrArg (List.filterMap · seeds) ?_
  funext seed
  cases seed with
  | error err => rfl
  | ok raddr =>
    by_cases hlast : raddr.getLast? = some (.p2p id)
    · have hentry : seedEntry (.ok raddr) = some (id, raddr) :=
        seedEntry_eq_some_iff.2 ⟨rfl, hlast⟩
      simp [hentry, hlast, Except.toOption, Option.filter]
    · have hentry : ∀ e, seedEntry (.ok raddr) = some e → e.1 ≠ id := by
        rintro ⟨id', raddr'⟩ he rfl
        obtain ⟨hok, hlast'⟩ := seedEntry_eq_some_iff.1 he
        cases hok
        exact hlast hlast'
      cases he : seedEntry (.ok raddr) with
      | none => simp [hlast, Except.toOption, Option.filter]
      | some e => simp [hentry e he, hlast, Except.toOption, Option.filter]

/-- The first loop groups the seeds by peer. -/
theorem get_seedPeers (h : seedPeers ∅ seeds = .ok peerAddrs) (id : PeerId) :
    peerAddrs.get id = if seedsOf id seeds = [] then none else some (seedsOf id seeds) := by
  obtain ⟨-, rfl⟩ := seedPeers_eq_ok_iff.1 h
  rw [HashMap.get_foldl_push, valuesOf_seedEntry, HashMap.get_empty, Option.getD_none,
    List.nil_append]

theorem exists_seedPeers_ok_iff :
    (∃ peerAddrs, seedPeers ∅ seeds = .ok peerAddrs) ↔ SeedsValid seeds := by
  rw [SeedsValid, ← forall_seedEntry_iff]
  constructor
  · rintro ⟨peerAddrs, h⟩
    exact (seedPeers_eq_ok_iff.1 h).1
  · intro hall
    exact ⟨_, seedPeers_eq_ok_iff.2 ⟨hall, rfl⟩⟩

end

/-! ### The second loop -/

section

variable [Sha256]

theorem RouterState.seedOne_eq_ok {s s' : RouterState} {info : PeerInfo} :
    seedOne info s = .ok () s' ↔ s.insertSeed info = .ok s' := by
  unfold seedOne
  cases s.insertSeed info <;> simp

theorem RouterState.Sound.insertSeeds {localId : PeerId} {s : RouterState} (hs : s.Sound localId)
    {infos : List PeerInfo} (hinfos : ∀ info ∈ infos, ¬ IsLocal localId info.id) :
    ∃ s', RouterState.insertSeeds infos s = .ok () s' ∧
      s'.peerBook = s.peerBook.insertAll infos := by
  induction infos generalizing s with
  | nil => exact ⟨s, rfl, rfl⟩
  | cons info infos ih =>
    rw [List.forall_mem_cons] at hinfos
    obtain ⟨s₁, hseed, hs₁, hbook₁⟩ := hs.insertSeed hinfos.1
    obtain ⟨s', hrest, hbook⟩ := ih hs₁ hinfos.2
    refine ⟨s', ?_, ?_⟩
    · rw [RouterState.insertSeeds, List.forM_eq_forM, List.forM_cons,
        run_bind_ok (seedOne_eq_ok.2 hseed)]
      exact hrest
    · rw [hbook, hbook₁, RawMemoryPeerBook.insertAll_cons]

theorem RouterState.sound_new (localId : PeerId) (peerBook : RawMemoryPeerBook) :
    (RouterState.new ⟨0, .empty (.ofPeerId localId)⟩ peerBook).Sound localId where
  wf := ⟨_, RawKBucketTable.represents_empty, rfl⟩
  running := rfl
  seeding := by simp [new]
  events := by simp [new]
  pings := by simp [new]

/-! ### The whole call -/

variable {order : Shuffle (PeerId × List Multiaddr)} {localId : PeerId}
  {seeds : List (Except String Multiaddr)} {s : SwitchTables}

/-- The digests tell the peers of the seeds from the local one. -/
def Separates (localId : PeerId) (seeds : List (Except String Multiaddr)) : Prop :=
  ∀ id, seedsOf id seeds ≠ [] → IsLocal localId id → id = localId

theorem withSeeds_of_error {err : KadError} (h : seedPeers ∅ seeds = .error err) :
    KademliaOptions.withSeeds order localId seeds s = .error (.returned err) s := by
  rw [KademliaOptions.withSeeds, h]
  rfl

theorem withSeeds_of_ok {peerAddrs : HashMap PeerId (List Multiaddr)}
    (h : seedPeers ∅ seeds = .ok peerAddrs) {router : RouterState}
    (hrouter : RouterState.insertSeeds (collected order peerAddrs)
      (.new ⟨0, .empty (.ofPeerId localId)⟩ s.peerBook) = .ok () router) :
    KademliaOptions.withSeeds order localId seeds s =
      .ok router ⟨router.peerBook, s.tables ++ [router.kad]⟩ := by
  have hbind : KBucketTable.bind localId =
      .ok (⟨0, .empty (.ofPeerId localId)⟩ : KBucketTable 20) := rfl
  have hloop : Seeding.onRouter ⟨0, .empty (.ofPeerId localId)⟩
      (RouterState.insertSeeds (collected order peerAddrs)) s =
      .ok router ⟨router.peerBook, s.tables ++ [router.kad]⟩ := by
    rw [Seeding.onRouter, hrouter]
  rw [KademliaOptions.withSeeds, h, hbind]
  exact hloop

/-- **`with_seeds` does everything or nothing.**  For seeds that are not the local peer: if one of
them does not end in a peer id, the call returns an error, and the peer book and the routing tables
are as before.  Otherwise the entry of every peer that is named lists exactly its seeds, in their
order, and the other entries are as before. -/
theorem with_seeds_exact (order : Shuffle (PeerId × List Multiaddr)) (s : SwitchTables)
    (hlocal : seedsOf localId seeds = []) (hsha : Separates localId seeds) :
    (¬ SeedsValid seeds →
      ∃ err, KademliaOptions.withSeeds order localId seeds s = .error (.returned err) s) ∧
    (SeedsValid seeds →
      ∃ router s', KademliaOptions.withSeeds order localId seeds s = .ok router s' ∧
        (∀ id, seedsOf id seeds ≠ [] → ∃ info, s'.peerBook.get id = some info ∧ info.id = id ∧
          info.addrs = seedsOf id seeds) ∧
        ∀ id, seedsOf id seeds = [] → s'.peerBook.get id = s.peerBook.get id) := by
  constructor
  · intro hinvalid
    cases hseeds : seedPeers ∅ seeds with
    | ok peerAddrs => exact absurd (exists_seedPeers_ok_iff.1 ⟨peerAddrs, hseeds⟩) hinvalid
    | error err => exact ⟨err, withSeeds_of_error hseeds⟩
  · intro hvalid
    obtain ⟨peerAddrs, hseeds⟩ := exists_seedPeers_ok_iff.2 hvalid
    have hget := get_seedPeers hseeds
    -- none of the peers that are inserted is the local one
    have hothers : ∀ info ∈ collected order peerAddrs, ¬ IsLocal localId info.id := by
      intro info hmem hinfo
      obtain ⟨addrs, haddrs⟩ := mem_collected.1 ⟨info, hmem, rfl⟩
      rw [hget] at haddrs
      split_ifs at haddrs with hnil
      rw [hsha info.id hnil hinfo] at hnil
      exact hnil hlocal
    obtain ⟨router, hrouter, hbook⟩ :=
      (RouterState.sound_new localId s.peerBook).insertSeeds hothers
    have hafter : ∀ id, router.peerBook.get id =
        (s.peerBook.insertAll (collected order peerAddrs)).get id := by
      intro id
      rw [hbook]
      rfl
    refine ⟨router, _, withSeeds_of_ok hseeds hrouter, fun id hid => ?_, fun id hid => ?_⟩
    · refine ⟨.discovered id (seedsOf id seeds), ?_, rfl, rfl⟩
      rw [hafter, get_insertAll_collected, hget, if_neg hid]
    · rw [hafter, get_insertAll_collected, hget, if_pos hid]

end

section Sample

attribute [local instance] Libp2p.loopback Sha256.ofKeys

/-- An address of the node with key `keyC`. -/
def seedOfC : Multiaddr := [.ip4 0x7f000001, .tcp 4003, .tls, .p2p keyC.toPeerId]

/-- The seeds of two nodes, one of them given twice. -/
def seedsOfBC : List (Except String Multiaddr) := [.ok seedOfB, .ok seedOfC, .ok seedOfB]

theorem separates_seedsOfBC : Separates keyA.toPeerId seedsOfBC := by
  intro id hid hlocal
  by_cases hB : id = keyB.toPeerId
  · subst hB
    exact absurd hlocal (by decide)
  by_cases hC : id = keyC.toPeerId
  · subst hC
    exact absurd hlocal (by decide)
  · refine absurd ?_ hid
    have hother : ∀ raddr ∈ [seedOfB, seedOfC, seedOfB], raddr.getLast? ≠ some (.p2p id) := by
      simp [seedOfB, seedOfC, Ne.symm hB, Ne.symm hC]
    simpa [seedsOf, seedsOfBC, Except.toOption, List.filter_eq_nil_iff] using hother

theorem with_seeds_exact_seedsOfBC : ∃ router s' info,
    KademliaOptions.withSeeds .id keyA.toPeerId seedsOfBC ⟨.default, []⟩ = .ok router s' ∧
    s'.peerBook.get keyB.toPeerId = some info ∧ info.addrs = [seedOfB, seedOfB] := by
  have hvalid : SeedsValid seedsOfBC := by
    intro seed hmem
    simp only [seedsOfBC, List.mem_cons, List.not_mem_nil, or_false] at hmem
    rcases hmem with rfl | rfl | rfl <;> exact ⟨_, _, rfl, rfl⟩
  obtain ⟨router, s', hok, hbook, -⟩ := (with_seeds_exact .id ⟨.default, []⟩ (by decide)
    separates_seedsOfBC).2 hvalid
  obtain ⟨info, hget, -, haddrs⟩ := hbook keyB.toPeerId (by decide)
  exact ⟨router, s', info, hok, hget, haddrs.trans (by decide)⟩

end Sample

end XStack
