import XStack.Connector.Dial
import XStack.Discovery.Erasure
import XStack.Kad.Closest
import XStack.Kad.Eviction
import XStack.Switch.Raises

/-!
# The router

Peers get into the routing table of a `KademliaRouter` in three ways: `with_seeds` inserts its
seeds, a background task inserts the peer of every `HandshakeSuccess` event of the switch, and the
ping tasks insert a peer again.  `try_insert` expects none of them to be the local node, and nobody
makes sure of it.  The local node can be one of the seeds; and it can be the peer of an event, when
it dials one of its own addresses.  For this it is enough that a peer, asked for the peers near some
key, names the local node: the lookup then queries it like any other candidate.

`routerLts` puts together the code on this way, from the answer of a peer to the update task.  A
step that panics ends the run.

## Main definitions

* `RouterEnv` : what the node cannot choose, the nodes that it may reach and be reached from.
* `RouterStep`, `routerLts` : the system.
* `RouterEnv.Avoids` : the local node is neither a seed nor a node that it may be connected to.

## Main results

* `RouterState.Sound.step` : what a step keeps in such surroundings.
* `queried_self` : a lookup that queries the local node can stop the update task.
* `router_never_inserts_self_iff` : when the local node is never inserted.
-/

namespace XStack

/-- What a router does not control. -/
structure RouterEnv where
  /-- The configuration of the switch. -/
  ops : SwitchOptions
  /-- What may become of dialling an address. -/
  net : Network
  /-- The connections that the listeners may accept, and how their peers answer. -/
  accepts : Set (P2pConn × Attempt)
  /-- `KademliaOptions::concurrency`. -/
  concurrency : ℕ+

/-- A call of `KademliaRouter::find_node`. -/
structure FindNodeCall where
  /-- The peer that is looked up. -/
  target : PeerId
  /-- The recursive lookup. -/
  route : RouteState

/-- A router, and the parts of the switch that its tasks use. -/
structure RouterState where
  /-- The routing table with its ping tasks. -/
  kad : KadState 20
  /-- The seeds that `with_seeds` has still to insert. -/
  seeding : List PeerInfo
  /-- The `HandshakeSuccess` events that the update task has still to take. -/
  events : List (String × PeerId)
  /-- `peer_book`. -/
  peerBook : RawMemoryPeerBook
  /-- The addresses that tasks are going to dial. -/
  dialing : List Multiaddr
  /-- The lookups. -/
  lookups : List FindNodeCall
  /-- The panic that has stopped one of the tasks. -/
  panic : Option Panic

/-- What happens in a router. -/
inductive RouterOp where
  /-- `with_seeds` inserts its next seed. -/
  | seed
  /-- The update task takes the next event. -/
  | update
  /-- The ping of a task succeeds or fails, and the task ends. -/
  | pinged (task : PingTask) (success : Bool)
  /-- `find_node` is called. -/
  | find (target : PeerId)
  /-- The code of a lookup between two of its loop tests. -/
  | turn (i : ℕ) (event : RouteEvent)
  /-- The query of a peer looks up the addresses of this peer. -/
  | ask (i : ℕ) (peerId : PeerId)
  /-- The call of a queried peer comes to an answer. -/
  | answer (i : ℕ) (peerId : PeerId) (result : Except Error (List KadPeer))
  /-- Another task connects to some addresses. -/
  | call (raddrs : List Multiaddr)
  /-- A task dials an address. -/
  | dial (raddr : Multiaddr)
  /-- A listener accepts a connection. -/
  | accept (conn : P2pConn)
  /-- Another task changes the peer book. -/
  | edit (peerBook : RawMemoryPeerBook)

namespace RouterState

variable [Sha256]

/-- `KBucketTable::insert`. -/
def insert (s : RouterState) (peerId : PeerId) : Except Panic RouterState := do
  let (task, table) ← s.kad.table.insert peerId
  return { s with kad := ⟨table, task.toList ++ s.kad.pings⟩ }

/-- The body of the loop in `KademliaOptions::with_seeds`. -/
def insertSeed (s : RouterState) (peerInfo : PeerInfo) : Except Panic RouterState := do
  let s ← s.insert peerInfo.id
  return { s with peerBook := (s.peerBook.insert peerInfo).2 }

/-- The end of a ping task. -/
def finish (s : RouterState) (task : PingTask) (success : Bool) : Except Panic RouterState := do
  let table ← s.kad.table.finish task success
  return { s with kad := ⟨table, s.kad.pings.erase task⟩ }

/-- The beginning of `KademliaRouter::find_node`; `closest` needs no more than 256 rounds. -/
def findNode (s : RouterState) (concurrency : ℕ+) (target : PeerId) :
    Except Panic RouterState := do
  let key := KBucketKey.ofPeerId target
  let seeds ← s.kad.table.table.closest 256 key
  let ctx := Recursively.new key ⟨20, by decide⟩ concurrency (seeds.getD [])
  return { s with lookups := s.lookups ++ [⟨target, ⟨ctx, [], .outer⟩⟩] }

/-- The loop over `insert_peer_info` in `FindNode::route`. -/
def insertPeerInfos (s : RouterState) (infos : List PeerInfo) : RouterState :=
  { s with peerBook := infos.foldl (fun book info => (book.insert info).2) s.peerBook }

/-- The state after a step; one that panics changes nothing else. -/
def after (s : RouterState) : Except Panic RouterState → RouterState
  | .ok s' => s'
  | .error panic => { s with panic := some panic }

end RouterState

section

variable [Libp2p] [PeerText] [Sha256]

/-- The steps of a router. -/
inductive RouterStep (env : RouterEnv) (s : RouterState) :
    RouterOp → Except Panic RouterState → Prop
  | seed {info rest} : s.seeding = info :: rest →
      RouterStep env s .seed ({ s with seeding := rest }.insertSeed info)
  | update {connId peerId rest} : s.events = (connId, peerId) :: rest →
      RouterStep env s .update ({ s with events := rest }.insert peerId)
  | pinged {task success} : task ∈ s.kad.pings →
      RouterStep env s (.pinged task success) (s.finish task success)
  -- there is no router before `with_seeds` has returned
  | find {target} : s.seeding = [] →
      RouterStep env s (.find target) (s.findNode env.concurrency target)
  | turn {i l event route} : s.lookups[i]? = some l → l.route.next = some (event, route) →
      RouterStep env s (.turn i event)
        (.ok { s with lookups := s.lookups.set i { l with route } })
  | ask {i l peerId info} : s.lookups[i]? = some l → peerId ∈ l.route.unorderd →
      peerId ≠ l.target → s.peerBook.get peerId = some info →
      RouterStep env s (.ask i peerId) (.ok { s with dialing := info.addrs ++ s.dialing })
  | answer {i l peerId result route} : s.lookups[i]? = some l →
      l.route.answer peerId ((FindNode.route l.target peerId result).map Prod.fst) = some route →
      RouterStep env s (.answer i peerId result)
        (.ok ({ s with lookups := s.lookups.set i { l with route } }.insertPeerInfos
          ((Discovery.findNode l.target peerId result).infos .id)))
  | call (raddrs) :
      RouterStep env s (.call raddrs) (.ok { s with dialing := raddrs ++ s.dialing })
  | dial {raddr attempt timing connId peerId} : raddr ∈ s.dialing →
      attempt ∈ env.net.outcomes raddr →
      (transportConnect env.ops raddr attempt timing).Raises (.handshakeSuccess connId peerId) →
      RouterStep env s (.dial raddr) (.ok { s with events := s.events ++ [(connId, peerId)] })
  | accept {conn attempt timing connId peerId} : (conn, attempt) ∈ env.accepts →
      (handshake env.ops conn attempt timing).Raises (.handshakeSuccess connId peerId) →
      RouterStep env s (.accept conn) (.ok { s with events := s.events ++ [(connId, peerId)] })
  | edit (peerBook) : RouterStep env s (.edit peerBook) (.ok { s with peerBook })

/-- The seed list is accepted by `with_seeds`. -/
def Accepted (seeds : List (Except String Multiaddr)) : Prop :=
  ∃ order infos, withSeeds order seeds = .ok infos

/-- The runs of the router that a node creates with some seeds. -/
def routerLts (env : RouterEnv) (localId : PeerId) (seeds : List (Except String Multiaddr)) :
    Lts RouterState RouterOp where
  init s := ∃ table order infos peerBook, KBucketTable.bind localId = .ok table ∧
    withSeeds order seeds = .ok infos ∧ s = ⟨⟨table, []⟩, infos, [], peerBook, [], [], none⟩
  step s op s' := s.panic = none ∧ ∃ result, RouterStep env s op result ∧ s' = s.after result

/-- The peer is the local node, as far as the routing table can tell. -/
def IsLocal (localId peerId : PeerId) : Prop :=
  KBucketKey.ofPeerId peerId = KBucketKey.ofPeerId localId

omit [Libp2p] [PeerText] in
instance (localId peerId : PeerId) : Decidable (IsLocal localId peerId) :=
  inferInstanceAs (Decidable (_ = _))

/-- The local node is neither a seed nor a node that the switch may be connected to. -/
structure RouterEnv.Avoids (env : RouterEnv) (localId : PeerId)
    (seeds : List (Except String Multiaddr)) : Prop where
  /-- No seed ends in the id of the local node. -/
  seeds : ∀ raddr id, .ok raddr ∈ seeds → raddr.getLast? = some (.p2p id) → ¬ IsLocal localId id
  /-- Wherever the switch dials, the local node does not answer and identify itself. -/
  dialed : ∀ raddr, ∀ attempt ∈ env.net.outcomes raddr, ∀ conn,
    attempt.Completes env.ops raddr conn → ¬ IsLocal localId conn.peerId
  /-- The local node does not connect to the switch and identify itself. -/
  accepted : ∀ conn attempt, (conn, attempt) ∈ env.accepts → ∀ received,
    attempt.identify = .ok received → Identifies env.ops.maxPacketSize received conn.peerId →
    ¬ IsLocal localId conn.peerId

end

/-! ### The routing table of a router -/

section

variable [Sha256] {localId peerId : PeerId} {s s' : RouterState}

theorem isLocal_iff : IsLocal localId peerId ↔ (KBucketKey.ofPeerId localId).place peerId = none :=
  KBucketKey.place_eq_none_iff.symm

theorem not_isLocal {i : ℕ} (h : (KBucketKey.ofPeerId localId).place peerId = some i) :
    ¬ IsLocal localId peerId := by
  rw [isLocal_iff, h]
  exact Option.some_ne_none i

theorem insertPrv_isLocal {K : ℕ} {t : KBucketTable K} (hkey : t.table.localKey = .ofPeerId localId)
    (hp : IsLocal localId peerId) :
    t.insertPrv peerId = .error (.expect "Insert local peer's id") := by
  have hnone : ((KBucketKey.ofPeerId peerId).distance t.table.localKey).kIndex = none := by
    rw [hkey]
    exact isLocal_iff.1 hp
  simp only [KBucketTable.insertPrv, RawKBucketTable.tryInsert, hnone]
  rfl

/-- **What an insert does**: it panics for the local node.  For another one it succeeds, and if it
spawns a ping task, neither of the two peers of the task is the local node. -/
theorem RouterState.insert_cases (hwf : s.kad.Wf (.ofPeerId localId)) (peerId : PeerId) :
    (IsLocal localId peerId ∧ s.insert peerId = .error (.expect "Insert local peer's id")) ∨
    (¬ IsLocal localId peerId ∧ ∃ table task, s.insert peerId =
        .ok { s with kad := ⟨table, Option.toList task ++ s.kad.pings⟩ } ∧
      ∀ t ∈ task, ∀ success, ¬ IsLocal localId (t.reinserted success)) := by
  obtain ⟨T, hT⟩ := hwf
  by_cases hp : IsLocal localId peerId
  · refine .inl ⟨hp, ?_⟩
    rw [insert, KBucketTable.insert, insertPrv_isLocal hT.table.localKey_eq hp]
    rfl
  · obtain ⟨i, hi⟩ := KBucketKey.exists_place hp
    obtain ⟨table, hins, -⟩ := KBucketTable.insertPrv_spec (by decide) hT hi
    refine .inr ⟨hp, table, (T.offer peerId hi).1.map (PingTask.mk peerId), ?_, ?_⟩
    · rw [insert, KBucketTable.insert, hins]
      rfl
    · intro t ht success
      obtain ⟨lru, hlru, rfl⟩ := Option.map_eq_some_iff.1 ht
      cases success with
      | true => exact hp
      | false => exact not_isLocal (T.place_of_offer hi hlru)

theorem RouterState.finish_ok (hwf : s.kad.Wf (.ofPeerId localId)) {task : PingTask}
    {success : Bool} (hp : ¬ IsLocal localId (task.reinserted success)) :
    ∃ table, s.finish task success = .ok { s with kad := ⟨table, s.kad.pings.erase task⟩ } := by
  obtain ⟨T, hT⟩ := hwf
  obtain ⟨i, hi⟩ := KBucketKey.exists_place hp
  obtain ⟨table, hins, -⟩ := KBucketTable.insertPrv_spec (by decide) hT hi
  refine ⟨table, ?_⟩
  rw [finish, KBucketTable.finish, hins]
  rfl

theorem RouterState.findNode_ok (hwf : s.kad.Wf (.ofPeerId localId)) (concurrency : ℕ+)
    (target : PeerId) : ∃ lookups, s.findNode concurrency target = .ok { s with lookups } := by
  obtain ⟨T, hT⟩ := hwf
  have hclosest := hT.table.searchable.closest_spec (Nat.le_refl 256) (.ofPeerId target)
  exact ⟨_, by rw [findNode, hclosest]; rfl⟩

theorem RouterState.insert_kad (h : s.insert peerId = .ok s') :
    s.kad.step (.insert peerId) = some s'.kad := by
  obtain ⟨⟨task, table⟩, hins, h⟩ := bind_eq_ok.1 h
  cases h
  simp only [KadState.step, hins]

theorem RouterState.finish_kad {task : PingTask} {success : Bool} (ht : task ∈ s.kad.pings)
    (h : s.finish task success = .ok s') :
    s.kad.step (.pinged task success) = some s'.kad := by
  obtain ⟨table, hfin, h⟩ := bind_eq_ok.1 h
  cases h
  simp only [KadState.step, ht, ↓reduceIte, hfin]

variable [Libp2p] [PeerText] {env : RouterEnv} {seeds : List (Except String Multiaddr)}
  {op : RouterOp} {result : Except Panic RouterState}

/-- The steps of a router are steps of its routing table, or leave the table alone. -/
theorem RouterStep.kad (hst : RouterStep env s op result) :
    (s.after result).kad = s.kad ∨ ∃ kop, s.kad.step kop = some (s.after result).kad := by
  cases hst with
  | @seed info rest =>
    -- a panic leaves the table as it was
    cases hins : ({ s with seeding := rest } : RouterState).insert info.id with
    | error panic =>
      rw [RouterState.insertSeed, hins]
      exact .inl rfl
    | ok s' =>
      have hkad := RouterState.insert_kad hins
      rw [RouterState.insertSeed, hins]
      exact .inr ⟨_, hkad⟩
  | @update connId peerId rest =>
    cases hins : ({ s with events := rest } : RouterState).insert peerId with
    | error panic => exact .inl rfl
    | ok s' =>
      have hkad := RouterState.insert_kad hins
      exact .inr ⟨_, hkad⟩
  | @pinged task success ht =>
    cases hfin : s.finish task success with
    | error panic => exact .inl rfl
    | ok s' => exact .inr ⟨_, RouterState.finish_kad ht hfin⟩
  | @find target =>
    left
    cases hfind : s.findNode env.concurrency target with
    | error panic => rfl
    | ok s' =>
      obtain ⟨peers, -, hfind⟩ := bind_eq_ok.1 hfind
      cases hfind
      rfl
  | turn | ask | answer | call | dial | accept | edit => exact .inl rfl

/-- **The router refines the routing table.** -/
theorem routerLts_kad (hr : (routerLts env localId seeds).Reachable s) :
    (kadLts 20 (.ofPeerId localId)).Reachable s.kad := by
  refine hr.invariant (I := fun s => (kadLts 20 (.ofPeerId localId)).Reachable s.kad) ?_ ?_
  · rintro s ⟨table, order, infos, peerBook, hbind, -, rfl⟩
    cases hbind
    exact .start rfl
  · rintro s op s' hkad ⟨-, result, hst, rfl⟩
    rcases hst.kad with hsame | ⟨kop, hkop⟩
    · rw [hsame]
      exact hkad
    · exact hkad.snoc hkop

theorem routerLts_wf (hr : (routerLts env localId seeds).Reachable s) :
    s.kad.Wf (.ofPeerId localId) := kadLts_wf (by decide) (routerLts_kad hr)

end

/-! ### Without the local node -/

section

variable [Sha256] {localId : PeerId} {s s' : RouterState}

/-- No task has panicked, and none is about to insert the local node. -/
structure RouterState.Sound (localId : PeerId) (s : RouterState) : Prop where
  wf : s.kad.Wf (.ofPeerId localId)
  running : s.panic = none
  seeding : ∀ info ∈ s.seeding, ¬ IsLocal localId info.id
  events : ∀ e ∈ s.events, ¬ IsLocal localId e.2
  pings : ∀ task ∈ s.kad.pings, ∀ success, ¬ IsLocal localId (task.reinserted success)

theorem RouterState.Sound.insert (hs : s.Sound localId) {peerId : PeerId}
    (hp : ¬ IsLocal localId peerId) : ∃ s', s.insert peerId = .ok s' ∧ s'.Sound localId := by
  rcases s.insert_cases hs.wf peerId with ⟨hlocal, -⟩ | ⟨-, table, task, hins, htask⟩
  · exact absurd hlocal hp
  · refine ⟨_, hins, hs.wf.step (by decide) (insert_kad hins), hs.running, hs.seeding, hs.events,
      fun t ht success => ?_⟩
    rcases List.mem_append.1 ht with hnew | hold
    · exact htask t (Option.mem_toList.1 hnew) success
    · exact hs.pings t hold success

theorem RouterState.insert_peerBook {peerId : PeerId} (h : s.insert peerId = .ok s') :
    s'.peerBook = s.peerBook := by
  obtain ⟨⟨task, table⟩, -, h⟩ := bind_eq_ok.1 h
  cases h
  rfl

theorem RouterState.Sound.insertSeed (hs : s.Sound localId) {info : PeerInfo}
    (hinfo : ¬ IsLocal localId info.id) : ∃ s', s.insertSeed info = .ok s' ∧ s'.Sound localId ∧
      s'.peerBook = (s.peerBook.insert info).2 := by
  obtain ⟨s', hins, hs'⟩ := hs.insert hinfo
  refine ⟨{ s' with peerBook := (s'.peerBook.insert info).2 }, ?_, { hs' with }, ?_⟩
  · rw [RouterState.insertSeed, hins]
    rfl
  · rw [insert_peerBook hins]

theorem RouterState.Sound.raise (hs : s.Sound localId) (connId : String) {peerId : PeerId}
    (hp : ¬ IsLocal localId peerId) :
    RouterState.Sound localId { s with events := s.events ++ [(connId, peerId)] } where
  wf := hs.wf
  running := hs.running
  seeding := hs.seeding
  events e he := by
    rcases List.mem_append.1 he with hold | hnew
    · exact hs.events e hold
    · exact List.mem_singleton.1 hnew ▸ hp
  pings := hs.pings

variable [Libp2p] [PeerText] {env : RouterEnv} {seeds : List (Except String Multiaddr)}
  {op : RouterOp} {result : Except Panic RouterState}

/-- **What a step keeps**, where the local node is neither a seed nor connected to. -/
theorem RouterState.Sound.step (henv : env.Avoids localId seeds) (hs : s.Sound localId)
    (hst : RouterStep env s op result) : ∃ s', result = .ok s' ∧ s'.Sound localId := by
  cases hst with
  | @seed info rest he =>
    have hseeding := hs.seeding
    rw [he, List.forall_mem_cons] at hseeding
    have hrest : ({ s with seeding := rest } : RouterState).Sound localId :=
      { hs with seeding := hseeding.2 }
    obtain ⟨s', hins, hs', -⟩ := hrest.insertSeed hseeding.1
    exact ⟨s', hins, hs'⟩
  | @update connId peerId rest he =>
    have hevents := hs.events
    rw [he, List.forall_mem_cons] at hevents
    have hrest : ({ s with events := rest } : RouterState).Sound localId :=
      { hs with events := hevents.2 }
    exact hrest.insert hevents.1
  | @pinged task success ht =>
    obtain ⟨table, hfin⟩ := RouterState.finish_ok hs.wf (hs.pings task ht success)
    exact ⟨_, hfin, { hs with
      wf := hs.wf.step (by decide) (RouterState.finish_kad ht hfin)
      pings := fun t hmem => hs.pings t (List.mem_of_mem_erase hmem) }⟩
  | @find target =>
    obtain ⟨lookups, hfind⟩ := RouterState.findNode_ok hs.wf env.concurrency target
    exact ⟨{ s with lookups }, hfind, { hs with }⟩
  | turn | ask | answer | call | edit => exact ⟨_, rfl, { hs with }⟩
  | @dial raddr attempt timing connId peerId _ hattempt hraises =>
    obtain ⟨conn, hcompletes, -, rfl⟩ := transportConnect_raises_iff.1 ⟨timing, hraises⟩
    exact ⟨_, rfl, hs.raise connId (henv.dialed raddr attempt hattempt conn hcompletes)⟩
  | @accept conn attempt timing connId peerId haccepts hraises =>
    obtain ⟨-, rfl, received, hreceived, hidentifies⟩ :=
      handshake_raises_iff.1 ⟨timing, hraises⟩
    exact ⟨_, rfl,
      hs.raise connId (henv.accepted conn attempt haccepts received hreceived hidentifies)⟩

end

/-! ### With the local node -/

section

variable [Sha256] [Libp2p] [PeerText] {env : RouterEnv} {localId : PeerId}
  {seeds : List (Except String Multiaddr)} {s : RouterState}

/-- Some run reaches the `expect` of `try_insert`. -/
def InsertsSelf (env : RouterEnv) (localId : PeerId) (seeds : List (Except String Multiaddr)) :
    Prop :=
  ∃ s, (routerLts env localId seeds).Reachable s ∧ s.panic = some (.expect "Insert local peer's id")

theorem routerLts_snoc {op : RouterOp} {result : Except Panic RouterState}
    (hr : (routerLts env localId seeds).Reachable s) (hs : s.panic = none)
    (hst : RouterStep env s op result) :
    (routerLts env localId seeds).Reachable (s.after result) := hr.snoc ⟨hs, result, hst, rfl⟩

/-- A seed that is the local node stops `with_seeds`. -/
theorem seed_inserts_self (infos : List PeerInfo) {s : RouterState}
    (hr : (routerLts env localId seeds).Reachable s) (hs : s.panic = none)
    (he : s.seeding = infos) (hlocal : ∃ info ∈ infos, IsLocal localId info.id) :
    InsertsSelf env localId seeds := by
  induction infos generalizing s with
  | nil => simp at hlocal
  | cons info rest ih =>
    have hnext := routerLts_snoc hr hs (.seed he)
    have hwf := routerLts_wf hr
    rcases RouterState.insert_cases (s := { s with seeding := rest }) hwf info.id with
      ⟨-, hins⟩ | ⟨hother, table, task, hins, -⟩
    · rw [RouterState.insertSeed, hins] at hnext
      exact ⟨_, hnext, rfl⟩
    · rw [RouterState.insertSeed, hins] at hnext
      refine ih hnext hs rfl ?_
      simpa [hother] using hlocal

/-- An event for the local node stops the update task. -/
theorem update_inserts_self (events : List (String × PeerId)) {s : RouterState}
    (hr : (routerLts env localId seeds).Reachable s) (hs : s.panic = none)
    (he : s.events = events) (hlocal : ∃ e ∈ events, IsLocal localId e.2) :
    InsertsSelf env localId seeds := by
  induction events generalizing s with
  | nil => simp at hlocal
  | cons e rest ih =>
    obtain ⟨connId, peerId⟩ := e
    have hnext := routerLts_snoc hr hs (.update he)
    have hwf := routerLts_wf hr
    rcases RouterState.insert_cases (s := { s with events := rest }) hwf peerId with
      ⟨-, hins⟩ | ⟨hother, table, task, hins, -⟩
    · rw [hins] at hnext
      exact ⟨_, hnext, rfl⟩
    · rw [hins] at hnext
      refine ih hnext hs rfl ?_
      simpa [hother] using hlocal

variable {raddr : Multiaddr} {attempt : Attempt} {conn : P2pConn}

/-- Dialling an address at which the local node answers stops the update task. -/
theorem dial_inserts_self (hr : (routerLts env localId seeds).Reachable s) (hs : s.panic = none)
    (hdial : raddr ∈ s.dialing) (hattempt : attempt ∈ env.net.outcomes raddr)
    (hc : attempt.Completes env.ops raddr conn) (hlocal : IsLocal localId conn.peerId) :
    InsertsSelf env localId seeds := by
  obtain ⟨timing, hraises⟩ := transportConnect_raises_iff.2 ⟨conn, hc, rfl, rfl⟩
  exact update_inserts_self _ (routerLts_snoc hr hs (.dial hdial hattempt hraises)) hs rfl
    ⟨(conn.id, conn.peerId), List.mem_concat_self, hlocal⟩

/-- **A lookup that queries the local node stops the update task**, if the peer book lists for the
queried peer an address at which the local node answers. -/
theorem queried_self (hr : (routerLts env localId seeds).Reachable s) (hs : s.panic = none)
    {i : ℕ} {l : FindNodeCall} {peerId : PeerId} {info : PeerInfo} (hl : s.lookups[i]? = some l)
    (hquery : peerId ∈ l.route.unorderd) (htarget : peerId ≠ l.target)
    (hbook : s.peerBook.get peerId = some info) (haddr : raddr ∈ info.addrs)
    (hattempt : attempt ∈ env.net.outcomes raddr) (hc : attempt.Completes env.ops raddr conn)
    (hlocal : IsLocal localId conn.peerId) : InsertsSelf env localId seeds :=
  dial_inserts_self (routerLts_snoc hr hs (.ask hl hquery htarget hbook)) hs
    (List.mem_append_left _ haddr) hattempt hc hlocal

/-- **When the local node is never inserted.**  For every accepted seed list, no run of the router
passes the local node to `try_insert` if and only if it is not a seed, does not answer where the
switch may dial, and does not connect to the switch. -/
theorem router_never_inserts_self_iff (hseeds : Accepted seeds) :
    (∀ s, (routerLts env localId seeds).Reachable s →
      s.panic ≠ some (.expect "Insert local peer's id")) ↔ env.Avoids localId seeds := by
  constructor
  · intro hnever
    have hno : ¬ InsertsSelf env localId seeds := fun ⟨s, hr, hs⟩ => hnever s hr hs
    obtain ⟨order, infos, hinfos⟩ := hseeds
    -- each of the three kinds of nodes is inserted by a short run from here
    let s₀ : RouterState :=
      ⟨⟨⟨0, .empty (.ofPeerId localId)⟩, []⟩, infos, [], .default, [], [], none⟩
    have hr₀ : (routerLts env localId seeds).Reachable s₀ :=
      .start ⟨_, order, infos, _, rfl, hinfos, rfl⟩
    refine ⟨fun raddr id hmem hlast hlocal => ?_, fun raddr attempt hattempt conn hc hlocal => ?_,
      fun conn attempt haccepts received hreceived hidentifies hlocal => ?_⟩
    · obtain ⟨info, hmem', hid⟩ := (mem_withSeeds hinfos).2 ⟨raddr, hmem, hlast⟩
      exact hno (seed_inserts_self infos hr₀ rfl rfl ⟨info, hmem', hid ▸ hlocal⟩)
    · exact hno (dial_inserts_self (routerLts_snoc hr₀ rfl (.call [raddr])) rfl
        List.mem_cons_self hattempt hc hlocal)
    · obtain ⟨timing, hraises⟩ :=
        handshake_raises_iff.2 ⟨rfl, rfl, received, hreceived, hidentifies⟩
      exact hno (update_inserts_self _ (routerLts_snoc hr₀ rfl (.accept haccepts hraises)) rfl rfl
        ⟨(conn.id, conn.peerId), List.mem_concat_self, hlocal⟩)
  · intro henv s hr hpanic
    -- no task is ever about to insert the local node
    have hsound : s.Sound localId := by
      refine hr.invariant ?_ ?_
      · rintro s ⟨table, order, infos, peerBook, hbind, hinfos, rfl⟩
        cases hbind
        refine ⟨⟨_, RawKBucketTable.represents_empty, rfl⟩, rfl, fun info hmem => ?_, by simp,
          by simp⟩
        obtain ⟨raddr, hseed, hlast⟩ := (mem_withSeeds hinfos).1 ⟨info, hmem, rfl⟩
        exact henv.seeds raddr _ hseed hlast
      · rintro s op s' hs ⟨-, result, hst, rfl⟩
        obtain ⟨s', rfl, hs'⟩ := hs.step henv hst
        exact hs'
    rw [hsound.running] at hpanic
    cases hpanic

end

section Sample

/-- SHA-256 on the peer ids of three Ed25519 keys. -/
@[reducible] def Sha256.ofKeys : Sha256 where
  digest bytes := ([
    (keyA, 0x06567cf09231b70576326a32e0f6c2fa5dc6004222b79b851ae39d426f83409e#256),
    (keyB, 0xf34b628bf1ef158233696c36c04d7dd27ed90d4c1050fc820142438c9cf165e2#256),
    (keyC, 0xa7037c452aa2695394f91666a47c974250de24ff465b35d7e81396ce260fa703#256)].find?
      fun e : PublicKey × U256 => 0x00 :: 0x24 :: e.1.encodeProtobuf == bytes).elim 0#256 Prod.snd

/-- The encoding of the address at which the node listens. -/
def loopbackBytes : List UInt8 := [0x04, 127, 0, 0, 1, 0x06, 0x0f, 0xa1, 0xc0, 0x03]

/-- The third-party functions, on this address too. -/
@[reducible] def Libp2p.loopback : Libp2p := { Libp2p.ed25519 with
  decodeMultiaddr := fun bytes =>
    if bytes = loopbackBytes then .ok loopbackTcp else Libp2p.ed25519.decodeMultiaddr bytes }

attribute [local instance] Libp2p.loopback Sha256.ofKeys plainText

theorem completes_answeredBy {key : PublicKey} (hkey : key ∈ [keyA, keyB]) (raddr : Multiaddr) :
    (answeredBy key).Completes anyTransport raddr ⟨"b", key, loopbackTcp⟩ := by
  refine ⟨⟨_, rfl⟩, rfl, _, rfl, ?_⟩
  simp only [List.mem_cons, List.not_mem_nil, or_false] at hkey
  rcases hkey with rfl | rfl
  · exact ⟨⟨38, 0x0a :: 36 :: keyA.encodeProtobuf, ⟨keyA.encodeProtobuf, [], none, []⟩, keyA, [],
      [], rfl, by decide, by decide, rfl, rfl, rfl, rfl⟩, rfl⟩
  · exact ⟨⟨38, 0x0a :: 36 :: keyB.encodeProtobuf, ⟨keyB.encodeProtobuf, [], none, []⟩, keyB, [],
      [], rfl, by decide, by decide, rfl, rfl, rfl, rfl⟩, rfl⟩

/-- The address of the node with key `keyB`. -/
def seedOfB : Multiaddr := [.ip4 0x7f000001, .tcp 4002, .tls, .p2p keyB.toPeerId]

theorem accepted_seedOfB : Accepted [.ok seedOfB] := ⟨.id, _, rfl⟩

/-- The node with key `keyB` answers wherever the node dials. -/
def besideB : RouterEnv where
  ops := anyTransport
  net := ⟨fun _ => {answeredBy keyB}, fun _ => ⟨_, rfl⟩⟩
  accepts := ∅
  concurrency := ⟨20, by decide⟩

theorem router_never_inserts_self_iff_besideB :
    (∀ s, (routerLts besideB keyA.toPeerId [.ok seedOfB]).Reachable s →
      s.panic ≠ some (.expect "Insert local peer's id")) ∧
    besideB.Avoids keyA.toPeerId [.ok seedOfB] := by
  have havoids : besideB.Avoids keyA.toPeerId [.ok seedOfB] := by
    have hB : ¬ IsLocal keyA.toPeerId keyB.toPeerId := by decide
    refine ⟨fun raddr id hmem hlast => ?_, fun raddr attempt hattempt conn hc => ?_, ?_⟩
    · cases List.mem_singleton.1 hmem
      cases hlast
      exact hB
    · cases hattempt
      cases hc.2.1
      exact hB
    · intro conn attempt haccepts
      cases haccepts
  exact ⟨(router_never_inserts_self_iff accepted_seedOfB).2 havoids, havoids⟩

/-- The node itself answers at its own address, and the node with key `keyB` elsewhere. -/
def besideItself : RouterEnv where
  ops := anyTransport
  net := ⟨fun raddr => {answeredBy (if raddr = loopbackTcp then keyA else keyB)}, fun _ => ⟨_, rfl⟩⟩
  accepts := ∅
  concurrency := ⟨20, by decide⟩

/-- The routing table of the node with key `keyA` after it has met the one with key `keyB`. -/
def tableOfB : KBucketTable 20 where
  len := 1
  table := (RawKBucketTable.empty (.ofPeerId keyA.toPeerId)).addBucket 255 ⟨[keyB.toPeerId]⟩

/-- The book after the seed has been inserted. -/
def bookOfB : RawMemoryPeerBook :=
  (RawMemoryPeerBook.default.insert (.discovered keyB.toPeerId [seedOfB])).2

/-- The router while it inserts its seed. -/
def seedingB : RouterState :=
  ⟨⟨⟨0, .empty (.ofPeerId keyA.toPeerId)⟩, []⟩, [.discovered keyB.toPeerId [seedOfB]], [], .default,
    [], [], none⟩

/-- The router with one lookup, of the peer with key `keyC`. -/
def lookingUpC (peerBook : RawMemoryPeerBook) (lookups : List RouteState) : RouterState :=
  ⟨⟨tableOfB, []⟩, [], [], peerBook, [], lookups.map (FindNodeCall.mk keyC.toPeerId), none⟩

/-- The state of this lookup. -/
def routeToC (closestK : List PeerId) (queried : Finset PeerId) (candidates unorderd : List PeerId)
    (pc : RoutePc) : RouteState :=
  ⟨⟨.ofPeerId keyC.toPeerId, closestK, queried, candidates, 20, 20⟩, unorderd, pc⟩

theorem reachable_lookingUpC :
    (routerLts besideItself keyA.toPeerId [.ok seedOfB]).Reachable
      (lookingUpC bookOfB [routeToC [] ∅ [keyB.toPeerId] [] .outer]) := by
  have hk : ((KBucketKey.ofPeerId keyB.toPeerId).distance
      (.ofPeerId keyA.toPeerId)).kIndex = some 255 := by decide
  have hseed : ({ seedingB with seeding := [] } : RouterState).insertSeed
      (.discovered keyB.toPeerId [seedOfB]) = .ok (lookingUpC bookOfB []) := by
    simp [RouterState.insertSeed, RouterState.insert, seedingB, KBucketTable.insert,
      KBucketTable.insertPrv, RawKBucketTable.tryInsert, RawKBucketTable.empty, hk, fetchAdd,
      Except.map, lookingUpC, tableOfB, RawKBucketTable.addBucket, KBucket.new, PeerInfo.discovered,
      bookOfB, bind, Except.bind, pure, Except.pure]
  have hstart : (routerLts besideItself keyA.toPeerId [.ok seedOfB]).Reachable seedingB :=
    .start ⟨_, .id, _, _, rfl, rfl, rfl⟩
  have hseeded := routerLts_snoc hstart rfl (.seed rfl)
  rw [hseed] at hseeded
  -- the search for the closest peers finds the only one that there is
  have hclosest : tableOfB.table.closest 256 (.ofPeerId keyC.toPeerId) =
      .ok (some [keyB.toPeerId]) := by
    obtain ⟨T, hT⟩ := routerLts_wf hseeded
    have hscan : tableOfB.table.scan (tableOfB.table.startIndex (.ofPeerId keyC.toPeerId)) =
        [keyB.toPeerId] :=
      List.perm_singleton.1 (hT.table.searchable.scan_perm (tableOfB.table.startIndex_lt _))
    calc tableOfB.table.closest 256 (.ofPeerId keyC.toPeerId)
        = .ok (some ((tableOfB.table.scan
            (tableOfB.table.startIndex (.ofPeerId keyC.toPeerId))).take 20)) :=
          hT.table.searchable.closest_spec (Nat.le_refl 256) _
      _ = .ok (some [keyB.toPeerId]) := by rw [hscan]; rfl
  have hfind : (lookingUpC bookOfB []).findNode besideItself.concurrency keyC.toPeerId =
      .ok (lookingUpC bookOfB [routeToC [] ∅ [keyB.toPeerId] [] .outer]) := by
    show (tableOfB.table.closest 256 (.ofPeerId keyC.toPeerId) >>= _ : Except Panic RouterState) = _
    rw [hclosest]
    rfl
  have hfound : RouterStep besideItself (lookingUpC bookOfB []) (.find keyC.toPeerId) _ := .find rfl
  rw [hfind] at hfound
  exact routerLts_snoc hseeded rfl hfound

/-- What the peer with key `keyB` answers: the node itself, at its own address. -/
def namesA : Except Error (List KadPeer) := .ok [⟨keyA.toPeerId.toBytes, [loopbackBytes]⟩]

/-- The book after this answer. -/
def bookOfAB : RawMemoryPeerBook :=
  (bookOfB.insert (.discovered keyA.toPeerId [loopbackTcp])).2

/-- The lookup hears of the node itself, and queries it. -/
theorem reachable_queriesA :
    (routerLts besideItself keyA.toPeerId [.ok seedOfB]).Reachable
      (lookingUpC bookOfAB [routeToC [keyB.toPeerId] {keyA.toPeerId, keyB.toPeerId} []
        [keyA.toPeerId] .inner]) := by
  have hqueryB : (routeToC [] ∅ [keyB.toPeerId] [] .outer).next =
      some (.query keyB.toPeerId, routeToC [] {keyB.toPeerId} [] [keyB.toPeerId] .inner) := rfl
  have hanswer : (routeToC [] {keyB.toPeerId} [] [keyB.toPeerId] .inner).answer keyB.toPeerId
      ((FindNode.route keyC.toPeerId keyB.toPeerId namesA).map Prod.fst) =
      some (routeToC [keyB.toPeerId] {keyB.toPeerId} [keyA.toPeerId] [] .inner) := rfl
  have hproceed : (routeToC [keyB.toPeerId] {keyB.toPeerId} [keyA.toPeerId] [] .inner).next =
      some (.proceed, routeToC [keyB.toPeerId] {keyB.toPeerId} [keyA.toPeerId] [] .outer) := rfl
  have hqueryA : (routeToC [keyB.toPeerId] {keyB.toPeerId} [keyA.toPeerId] [] .outer).next =
      some (.query keyA.toPeerId, routeToC [keyB.toPeerId] {keyA.toPeerId, keyB.toPeerId} []
        [keyA.toPeerId] .inner) := rfl
  have h₁ := routerLts_snoc reachable_lookingUpC rfl (.turn (i := 0) rfl hqueryB)
  have h₂ := routerLts_snoc h₁ rfl (.answer (i := 0) rfl hanswer)
  have h₃ := routerLts_snoc h₂ rfl (.turn (i := 0) rfl hproceed)
  exact routerLts_snoc h₃ rfl (.turn (i := 0) rfl hqueryA)

/-- A node looks up the peer with key `keyC`, and the peer with key `keyB` answers with the node
itself and its own address.  The lookup queries the node, the switch dials the address, and the
update task panics. -/
theorem update_task_stopped :
    ¬ ∀ (env : RouterEnv) (localId : PeerId) (seeds : List (Except String Multiaddr)),
      Accepted seeds → ∀ s, (routerLts env localId seeds).Reachable s →
      s.panic ≠ some (.expect "Insert local peer's id") := by
  intro hall
  have hattempt : answeredBy keyA ∈ besideItself.net.outcomes loopbackTcp := by
    simp [besideItself]
  have hbook : bookOfAB.get keyA.toPeerId = some (.discovered keyA.toPeerId [loopbackTcp]) := rfl
  obtain ⟨s, hr, hpanic⟩ := queried_self reachable_queriesA rfl (i := 0) rfl
    (List.mem_singleton_self _) (by decide) hbook (List.mem_singleton_self _) hattempt
    (completes_answeredBy (by simp) loopbackTcp) rfl
  exact hall _ _ _ accepted_seedOfB s hr hpanic

end Sample

end XStack
