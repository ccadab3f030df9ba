import XStack.Kad.Discipline
import XStack.Kad.Router

/-!
# Finding a node

`KademliaRouter::find_node` starts a recursive lookup with the closest peers of the routing table,
and returns what the peer book says of the target when the lookup has ended.  Many lookups go on at
the same time, and share the routing table and the peer book with all other tasks of the node.

Each of them is a run of the recursive lookup, whose oracle is `FindNode::route`.  So what is known
of the recursive lookup holds of each of them, and it remains to see what an answer that names the
target does to the peer book.

## Main definitions

* `lookupEvents` : what an operation of the router is for one of the lookups.
* `Started` : what a lookup starts with.
* `KeepsListed` : other tasks do not remove a peer from the peer book.

## Main results

* `FindNode.route_cases` : what an answer tells a lookup.
* `routeLts_finished`, `routeLts_returned` : how a lookup ends.
* `routerLts_lookup` : each lookup is a run of the recursive lookup.
* `routerLts_listed` : a target that was named is in the peer book.
* `find_node_complete` : a lookup that finds nothing has asked everybody that it had to ask.
-/

namespace XStack

/-! ### The peer book -/

namespace RawMemoryPeerBook

variable {book : RawMemoryPeerBook} {peerId : PeerId} {infos : List PeerInfo}

theorem isSome_insert (h : (book.get peerId).isSome) (info : PeerInfo) :
    ((book.insert info).2.get peerId).isSome := by
  rw [get_insert]
  split_ifs
  · rfl
  · exact h

theorem isSome_insertAll (h : (book.get peerId).isSome) :
    ((book.insertAll infos).get peerId).isSome := by
  induction infos generalizing book with
  | nil => exact h
  | cons info infos ih => exact ih (isSome_insert h info)

theorem isSome_insertAll_of_mem (h : ∃ info ∈ infos, info.id = peerId) :
    ((book.insertAll infos).get peerId).isSome := by
  induction infos generalizing book with
  | nil => simp at h
  | cons info infos ih =>
    obtain ⟨info', hmem, hid⟩ := h
    rcases List.mem_cons.1 hmem with rfl | hmem
    · have hinfo : ((book.insert info').2.get peerId).isSome := by
        rw [get_insert, if_pos hid.symm]
        rfl
      rw [insertAll_cons]
      exact isSome_insertAll hinfo
    · exact ih ⟨info', hmem, hid⟩

end RawMemoryPeerBook

/-! ### What `FindNode::route` tells a lookup -/

section

variable [Libp2p] [PeerText] {target source : PeerId} {answer : Except Error (List KadPeer)}

/-- **What a lookup is told.**  The target tells it to stop, and a peer that names the target does.
Other answers name the peers that are close, or fail. -/
theorem FindNode.route_cases (target source : PeerId) (answer : Except Error (List KadPeer)) :
    (source = target ∧ FindNode.route target source answer = .ok (.finished, [])) ∨
    (∃ err, FindNode.route target source answer = .error err) ∨
    ∃ closestK, FindNode.route target source answer =
      .ok (if target ∈ closestK.map PeerInfo.id then .finished
        else .closest (closestK.map PeerInfo.id), closestK) := by
  unfold FindNode.route
  by_cases htarget : source = target
  · exact .inl ⟨htarget, if_pos htarget⟩
  · rw [if_neg htarget]
    cases answer with
    | error err => exact .inr (.inl ⟨err, rfl⟩)
    | ok closerPeers =>
      cases hfind : kadFindNode closerPeers with
      | error err => exact .inr (.inl ⟨err, by simp [hfind, bind, Except.bind]⟩)
      | ok closestK =>
        refine .inr (.inr ⟨closestK, ?_⟩)
        simp [hfind, bind, Except.bind, pure, Except.pure, List.any_eq_true]

theorem Discovery.names_iff {peerId : PeerId} :
    (Discovery.findNode target source answer).Names peerId ↔
      ∃ routing closestK, FindNode.route target source answer = .ok (routing, closestK) ∧
        peerId ∈ closestK.map PeerInfo.id := by
  have hinfos : (∃ info ∈ (Discovery.findNode target source answer).infos .id, info.id = peerId) ↔
      (Discovery.findNode target source answer).Names peerId := exists_mem_infos_iff
  rw [← hinfos, Discovery.infos]
  cases FindNode.route target source answer with
  | error err => simp
  | ok r =>
    obtain ⟨routing, closestK⟩ := r
    simp

theorem FindNode.finished_of_names (h : (Discovery.findNode target source answer).Names target) :
    (FindNode.route target source answer).map Prod.fst = .ok .finished := by
  obtain ⟨routing, closestK, hroute, hmem⟩ := Discovery.names_iff.1 h
  rcases FindNode.route_cases target source answer with ⟨-, h⟩ | ⟨err, h⟩ | ⟨closestK', h⟩
  · rw [h]
    rfl
  · cases hroute.symm.trans h
  · cases hroute.symm.trans h
    rw [h, if_pos hmem]
    rfl

theorem FindNode.of_finished
    (h : (FindNode.route target source answer).map Prod.fst = .ok .finished) :
    source = target ∨ (Discovery.findNode target source answer).Names target := by
  rcases FindNode.route_cases target source answer with ⟨hsource, -⟩ | ⟨err, hroute⟩ |
    ⟨closestK, hroute⟩
  · exact .inl hsource
  · rw [hroute] at h
    cases h
  · rw [hroute] at h
    split_ifs at h with hmem
    · exact .inr (Discovery.names_iff.2 ⟨_, _, hroute, hmem⟩)
    · cases h

/-- An answer that does not name the target is passed on to the lookup. -/
theorem FindNode.closest_of_names {peerId : PeerId}
    (h : (Discovery.findNode target source answer).Names peerId)
    (htarget : ¬ (Discovery.findNode target source answer).Names target) :
    ∃ peers, (FindNode.route target source answer).map Prod.fst = .ok (.closest peers) ∧
      peerId ∈ peers := by
  obtain ⟨routing, closestK, hroute, hmem⟩ := Discovery.names_iff.1 h
  rcases FindNode.route_cases target source answer with ⟨-, h⟩ | ⟨err, h⟩ | ⟨closestK', h⟩
  · cases hroute.symm.trans h
    cases hmem
  · cases hroute.symm.trans h
  · cases hroute.symm.trans h
    have hnot : target ∉ closestK.map PeerInfo.id :=
      fun hmem => htarget (Discovery.names_iff.2 ⟨_, _, h, hmem⟩)
    exact ⟨_, by rw [h, if_neg hnot]; rfl, hmem⟩

theorem FindNode.ok_of_closest {peers : List PeerId}
    (h : (FindNode.route target source answer).map Prod.fst = .ok (.closest peers)) :
    ∃ closerPeers, answer = .ok closerPeers := by
  cases answer with
  | ok closerPeers => exact ⟨closerPeers, rfl⟩
  | error err =>
    unfold FindNode.route at h
    split_ifs at h
    · cases h
    · cases h

theorem FindNode.not_mem_closest {peers : List PeerId}
    (h : (FindNode.route target source answer).map Prod.fst = .ok (.closest peers)) :
    target ∉ peers := by
  rcases FindNode.route_cases target source answer with ⟨-, hroute⟩ | ⟨err, hroute⟩ |
    ⟨closestK, hroute⟩
  · rw [hroute] at h
    cases h
  · rw [hroute] at h
    cases h
  · rw [hroute] at h
    split_ifs at h with hmem
    · cases h
    · cases h
      exact hmem

end

/-! ### What holds of every lookup -/

section

variable [Sha256] {key : KBucketKey} {constK concurrency : ℕ+} {known : List PeerId}
  {h : List RouteEvent} {s : RouteState}

/-- The code between two loop tests takes no answer. -/
theorem RouteState.next_ne_answered {s s' : RouteState} {event : RouteEvent}
    (hn : s.next = some (event, s')) (peerId : PeerId) (result : Except Error Routing) :
    event ≠ .answered peerId result := by
  rintro rfl
  rcases next_cases hn with ⟨_, _, _, -, -, ⟨⟩, -⟩ | ⟨_, _, -, -, ⟨⟩, -⟩ | ⟨-, ⟨⟩, -⟩ |
    ⟨-, -, ⟨⟩, -⟩ | ⟨-, -, -, ⟨⟩⟩

theorem routeLts_heard (hr : (routeLts key constK concurrency known).Run h s) :
    (∀ peerId ∈ s.unorderd, Heard known h peerId) ∧
      ∀ peerId result, .answered peerId result ∈ h → Heard known h peerId := by
  induction hr with
  | start hi =>
    cases hi
    exact ⟨nofun, nofun⟩
  | @snoc h s s' event hr hst ih =>
    obtain ⟨hun, hanswered⟩ := ih
    have hfed := (routeLts_disciplined (hr.snoc hst)).fed
    rcases hst with hn | ⟨source, result, rfl, ha⟩
    · have hun' : ∀ peerId ∈ s'.unorderd, Heard known h peerId := by
        rcases RouteState.next_cases hn with ⟨source, candidates, queried, -, -, -, -, rfl⟩ |
          ⟨source, candidates, -, hc, -, -, rfl⟩ | ⟨-, -, rfl⟩ | ⟨-, -, -, rfl⟩ |
          ⟨-, -, -, rfl⟩
        · exact hun
        · intro peerId hp
          rcases List.mem_append.1 hp with hold | hnew
          · exact hun peerId hold
          · rw [List.mem_singleton.1 hnew]
            exact (routeLts_disciplined hr).heard source (hc ▸ List.mem_cons_self)
        · exact hun
        · exact hun
        · exact absurd List.mem_concat_self hfed
      refine ⟨fun peerId hp => (hun' peerId hp).concat _, fun peerId result hmem => ?_⟩
      rcases List.mem_append.1 hmem with hold | hnew
      · exact (hanswered peerId result hold).concat _
      · cases List.mem_singleton.1 hnew
        exact absurd rfl (RouteState.next_ne_answered hn peerId result)
    · obtain ⟨-, hsource, hunorderd, -⟩ := RouteState.answer_cases ha
      refine ⟨fun peerId hp => ?_, fun peerId result' hmem => ?_⟩
      · rw [hunorderd] at hp
        exact (hun peerId (List.mem_of_mem_erase hp)).concat _
      · rcases List.mem_append.1 hmem with hold | hnew
        · exact (hanswered peerId result' hold).concat _
        · cases List.mem_singleton.1 hnew
          exact (hun source hsource).concat _

/-- **A lookup that is told to stop stops.** -/
theorem routeLts_finished (hr : (routeLts key constK concurrency known).Run h s)
    (hfin : Finished h) : ∃ R, s.pc = .returned R := by
  induction hr with
  | start hi =>
    obtain ⟨source, hmem⟩ := hfin
    cases hmem
  | @snoc h s s' event hr hst ih =>
    obtain ⟨source, hmem⟩ := hfin
    rcases List.mem_append.1 hmem with hold | hnew
    · -- nothing happens after it has returned
      obtain ⟨R, hret⟩ := ih ⟨source, hold⟩
      rcases hst with hn | ⟨_, _, -, ha⟩
      · rw [RouteState.next, hret] at hn
        cases hn
      · cases hret.symm.trans (RouteState.answer_cases ha).1
    · cases List.mem_singleton.1 hnew
      rcases hst with hn | ⟨_, _, heq, ha⟩
      · exact absurd rfl (RouteState.next_ne_answered hn _ _)
      · cases heq
        unfold RouteState.answer at ha
        split_ifs at ha
        cases ha
        exact ⟨_, rfl⟩

/-- **What a lookup has done when it returns on its own.** -/
theorem routeLts_returned (hr : (routeLts key constK concurrency known).Run h s) {R : List PeerId}
    (hret : s.pc = .returned R) (hfin : ¬ Finished h) :
    (∀ peerId ∈ R, Succeeded h peerId) ∧
      ∀ peerId, Heard known h peerId →
        (∃ result, .answered peerId result ∈ h) ∨ Beaten key.peerDistance constK R peerId := by
  obtain ⟨hI, hq⟩ := routeLts_inv hr
  rw [RouteState.Quiet, hret] at hq
  obtain ⟨rfl, hcand, hun⟩ := hq.resolve_left hfin
  have hanswered : ∀ peerId ∈ s.ctx.closestK, Succeeded h peerId :=
    fun peerId hmem => (hI.answered peerId hmem).resolve_right hfin
  refine ⟨hanswered, fun peerId hheard => ?_⟩
  rcases hI.covered peerId hheard with hc | hc | hc | ⟨err, hc⟩ | hc
  · rw [hcand] at hc
    cases hc
  · rw [hun] at hc
    cases hc
  · obtain ⟨peers, hmem⟩ := hanswered peerId hc
    exact .inl ⟨_, hmem⟩
  · exact .inl ⟨_, hc⟩
  · rw [hI.key_eq, hI.constK_eq] at hc
    exact .inr hc

end

/-! ### The lookups of a router -/

section

variable [Libp2p] [PeerText] [Sha256] {env : RouterEnv} {localId target : PeerId}
  {seeds : List (Except String Multiaddr)} {h : List RouterOp} {s : RouterState} {i : ℕ}

/-- What an operation is for the lookup with the number `i`, which looks up `target`. -/
def lookupEvents (target : PeerId) (i : ℕ) : RouterOp → List RouteEvent
  | .turn j event => if j = i then [event] else []
  | .answer j peerId result =>
    if j = i then [.answered peerId ((FindNode.route target peerId result).map Prod.fst)] else []
  | _ => []

/-- A lookup of `target` has been started, with the peers `known`: the closest ones of the routing
table at this time. -/
def Started (env : RouterEnv) (localId : PeerId) (seeds : List (Except String Multiaddr))
    (target : PeerId) (h : List RouterOp) (known : List PeerId) : Prop :=
  ∃ pre post s₀ closest, h = pre ++ .find target :: post ∧
    (routerLts env localId seeds).Run pre s₀ ∧
    s₀.kad.table.table.closest 256 (.ofPeerId target) = .ok closest ∧ known = closest.getD []

theorem Started.concat {known : List PeerId} (hs : Started env localId seeds target h known)
    (op : RouterOp) : Started env localId seeds target (h ++ [op]) known := by
  obtain ⟨pre, post, s₀, closest, rfl, hrest⟩ := hs
  exact ⟨pre, post ++ [op], s₀, closest, by simp, hrest⟩

/-- **What an operation does to the lookups.** -/
theorem RouterStep.lookups_cases {op : RouterOp} {result : Except Panic RouterState}
    (hst : RouterStep env s op result) :
    (∃ target closest, op = .find target ∧
      s.kad.table.table.closest 256 (.ofPeerId target) = .ok closest ∧
      (s.after result).lookups = s.lookups ++ [⟨target,
        ⟨.new (.ofPeerId target) ⟨20, by decide⟩ env.concurrency (closest.getD []), [], .outer⟩⟩]) ∨
    (∃ i l event route, s.lookups[i]? = some l ∧
      (∀ j, j ≠ i → ∀ target, lookupEvents target j op = []) ∧
      lookupEvents l.target i op = [event] ∧
      (l.route.next = some (event, route) ∨
        ∃ peerId result, event = .answered peerId result ∧
          l.route.answer peerId result = some route) ∧
      (s.after result).lookups = s.lookups.set i { l with route }) ∨
    ((∀ target i, lookupEvents target i op = []) ∧ (s.after result).lookups = s.lookups) := by
  cases hst with
  | @seed info rest =>
    refine .inr (.inr ⟨fun _ _ => rfl, ?_⟩)
    cases hins : ({ s with seeding := rest } : RouterState).insert info.id with
    | error panic =>
      rw [RouterState.insertSeed, hins]
      rfl
    | ok s' =>
      rw [RouterState.insertSeed, hins]
      obtain ⟨⟨task, table⟩, -, hins⟩ := bind_eq_ok.1 hins
      cases hins
      rfl
  | @update connId peerId rest =>
    refine .inr (.inr ⟨fun _ _ => rfl, ?_⟩)
    cases hins : ({ s with events := rest } : RouterState).insert peerId with
    | error panic => rfl
    | ok s' =>
      obtain ⟨⟨task, table⟩, -, hins⟩ := bind_eq_ok.1 hins
      cases hins
      rfl
  | @pinged task success =>
    refine .inr (.inr ⟨fun _ _ => rfl, ?_⟩)
    cases hfin : s.finish task success with
    | error panic => rfl
    | ok s' =>
      obtain ⟨table, -, hfin⟩ := bind_eq_ok.1 hfin
      cases hfin
      rfl
  | @find target =>
    cases hclosest : s.kad.table.table.closest 256 (.ofPeerId target) with
    | error panic =>
      refine .inr (.inr ⟨fun _ _ => rfl, ?_⟩)
      rw [RouterState.findNode, hclosest]
      rfl
    | ok closest =>
      refine .inl ⟨target, closest, rfl, hclosest, ?_⟩
      rw [RouterState.findNode, hclosest]
      rfl
  | @turn i l event route hl hn =>
    exact .inr (.inl ⟨i, l, event, route, hl, fun j hj _ => if_neg (Ne.symm hj), if_pos rfl,
      .inl hn, rfl⟩)
  | @answer i l peerId result route hl ha =>
    exact .inr (.inl ⟨i, l, _, route, hl, fun j hj _ => if_neg (Ne.symm hj), if_pos rfl,
      .inr ⟨peerId, _, rfl, ha⟩, rfl⟩)
  | ask | call | dial | accept | edit => exact .inr (.inr ⟨fun _ _ => rfl, rfl⟩)

/-- **Each lookup of a router is a run of the recursive lookup.** -/
theorem routerLts_lookup (hr : (routerLts env localId seeds).Run h s) :
    (∀ i target, s.lookups.length ≤ i → h.flatMap (lookupEvents target i) = []) ∧
    ∀ i l, s.lookups[i]? = some l → ∃ known, Started env localId seeds l.target h known ∧
      (routeLts (.ofPeerId l.target) ⟨20, by decide⟩ env.concurrency known).Run
        (h.flatMap (lookupEvents l.target i)) l.route := by
  induction hr with
  | start hi =>
    obtain ⟨table, order, infos, peerBook, -, -, rfl⟩ := hi
    exact ⟨fun _ _ _ => rfl, nofun⟩
  | @snoc h s s' op hr hst ih =>
    obtain ⟨hnone, hsome⟩ := ih
    obtain ⟨-, result, hst, rfl⟩ := hst
    have hflat (i : ℕ) (target : PeerId) : (h ++ [op]).flatMap (lookupEvents target i) =
        h.flatMap (lookupEvents target i) ++ lookupEvents target i op := by simp
    rcases hst.lookups_cases with ⟨target, closest, rfl, hclosest, hlookups⟩ |
      ⟨j, l', event, route, hl', hothers, hevent, hroute, hlookups⟩ | ⟨hnothing, hlookups⟩
    · rw [hlookups]
      constructor
      · intro i target' hi
        rw [List.length_append, List.length_singleton] at hi
        rw [hflat, hnone i target' (by omega)]
        rfl
      · intro i l hl
        rcases Nat.lt_or_ge i s.lookups.length with hi | hi
        · -- an older lookup
          rw [List.getElem?_append_left hi] at hl
          obtain ⟨known, hstarted, hrun⟩ := hsome i l hl
          refine ⟨known, hstarted.concat _, ?_⟩
          rw [hflat]
          simpa [lookupEvents] using hrun
        · rw [List.getElem?_append_right hi, List.getElem?_singleton] at hl
          split_ifs at hl with hfirst
          cases hl
          refine ⟨closest.getD [], ⟨h, [], s, closest, rfl, hr, hclosest, rfl⟩, ?_⟩
          rw [hflat, hnone i target hi]
          exact .start rfl
    · rw [hlookups]
      have hj : j < s.lookups.length := (List.getElem?_eq_some_iff.1 hl').1
      constructor
      · intro i target hi
        rw [List.length_set] at hi
        rw [hflat, hnone i target hi, hothers i (by omega)]
        rfl
      · intro i l hl
        rw [hflat]
        by_cases hij : j = i
        · subst hij
          rw [List.getElem?_set_self hj] at hl
          cases hl
          obtain ⟨known, hstarted, hrun⟩ := hsome j l' hl'
          refine ⟨known, hstarted.concat _, ?_⟩
          rw [hevent]
          refine hrun.snoc ?_
          rcases hroute with hn | ⟨peerId, result, rfl, ha⟩
          · exact .inl hn
          · exact .inr ⟨peerId, result, rfl, ha⟩
        · rw [List.getElem?_set_ne hij] at hl
          obtain ⟨known, hstarted, hrun⟩ := hsome i l hl
          refine ⟨known, hstarted.concat _, ?_⟩
          rw [hothers i (Ne.symm hij), List.append_nil]
          exact hrun
    · rw [hlookups]
      constructor
      · intro i target hi
        rw [hflat, hnone i target hi, hnothing]
        rfl
      · intro i l hl
        obtain ⟨known, hstarted, hrun⟩ := hsome i l hl
        refine ⟨known, hstarted.concat _, ?_⟩
        rw [hflat, hnothing, List.append_nil]
        exact hrun

theorem mem_lookupEvents_iff (hr : (routerLts env localId seeds).Run h s) {peerId : PeerId}
    {result : Except Error Routing} :
    .answered peerId result ∈ h.flatMap (lookupEvents target i) ↔
      ∃ answer, .answer i peerId answer ∈ h ∧
        (FindNode.route target peerId answer).map Prod.fst = result := by
  rw [List.mem_flatMap]
  constructor
  · rintro ⟨op, hop, hmem⟩
    cases op with
    | turn j event =>
      obtain ⟨pre, post, rfl⟩ := List.append_of_mem hop
      obtain ⟨s₁, -, -, -, result, hst, -⟩ := hr.split
      rw [lookupEvents] at hmem
      split_ifs at hmem
      · cases List.mem_singleton.1 hmem
        cases hst with
        | turn hl hn => exact absurd rfl (RouteState.next_ne_answered hn _ _)
      · cases hmem
    | answer j source answer =>
      rw [lookupEvents] at hmem
      split_ifs at hmem with hj
      · subst hj
        cases List.mem_singleton.1 hmem
        exact ⟨answer, hop, rfl⟩
      · cases hmem
    | _ => cases hmem
  · rintro ⟨answer, hmem, rfl⟩
    refine ⟨_, hmem, ?_⟩
    rw [lookupEvents, if_pos rfl]
    exact List.mem_singleton_self _

end

/-! ### What becomes of the target -/

section

variable [Libp2p] [PeerText] [Sha256] {env : RouterEnv} {localId target : PeerId}
  {seeds : List (Except String Multiaddr)} {h : List RouterOp} {s : RouterState} {op : RouterOp}
  {result : Except Panic RouterState} {i : ℕ} {l : FindNodeCall}

/-- Another task does not remove the target from the peer book. -/
def KeepsListed (target : PeerId) (_ : List RouterOp) (s : RouterState) : RouterOp → Prop
  | .edit peerBook => (s.peerBook.get target).isSome → (peerBook.get target).isSome
  | _ => True

/-- The code of a router removes nobody from the peer book. -/
theorem RouterStep.isSome_get (hst : RouterStep env s op result)
    (hkeeps : KeepsListed target h s op)
    (hlisted : (s.peerBook.get target).isSome) :
    ((s.after result).peerBook.get target).isSome := by
  cases hst with
  | @seed info rest =>
    cases hins : ({ s with seeding := rest } : RouterState).insert info.id with
    | error panic =>
      rw [RouterState.insertSeed, hins]
      exact hlisted
    | ok s' =>
      have hbook := RouterState.insert_peerBook hins
      rw [RouterState.insertSeed, hins]
      refine RawMemoryPeerBook.isSome_insert ?_ info
      rw [hbook]
      exact hlisted
  | @update connId peerId rest =>
    cases hins : ({ s with events := rest } : RouterState).insert peerId with
    | error panic => exact hlisted
    | ok s' =>
      rw [RouterState.after, RouterState.insert_peerBook hins]
      exact hlisted
  | @pinged task success =>
    cases hfin : s.finish task success with
    | error panic => exact hlisted
    | ok s' =>
      obtain ⟨table, -, hfin⟩ := bind_eq_ok.1 hfin
      cases hfin
      exact hlisted
  | @find target' =>
    cases hfind : s.findNode env.concurrency target' with
    | error panic => exact hlisted
    | ok s' =>
      obtain ⟨peers, -, hfind⟩ := bind_eq_ok.1 hfind
      cases hfind
      exact hlisted
  | answer => exact RawMemoryPeerBook.isSome_insertAll hlisted
  | edit => exact hkeeps hlisted
  | turn | ask | call | dial | accept => exact hlisted

theorem RouterStep.target_eq (hst : RouterStep env s op result) {l' : FindNodeCall}
    (hl : s.lookups[i]? = some l) (hl' : (s.after result).lookups[i]? = some l') :
    l'.target = l.target := by
  rcases hst.lookups_cases with ⟨target, closest, -, -, hlookups⟩ |
    ⟨j, l₀, event, route, hl₀, -, -, -, hlookups⟩ | ⟨-, hlookups⟩
  · rw [hlookups, List.getElem?_append_left (List.getElem?_eq_some_iff.1 hl).1, hl] at hl'
    cases hl'
    rfl
  · rw [hlookups] at hl'
    by_cases hij : j = i
    · subst hij
      rw [List.getElem?_set_self (List.getElem?_eq_some_iff.1 hl).1] at hl'
      cases hl'
      cases hl₀.symm.trans hl
      rfl
    · rw [List.getElem?_set_ne hij, hl] at hl'
      cases hl'
      rfl
  · rw [hlookups, hl] at hl'
    cases hl'
    rfl

/-- **An answer that names the target gets it into the peer book**, where it stays. -/
theorem routerLts_listed (hr : (routerLts env localId seeds).RunWhere (KeepsListed target) h s)
    (hl : s.lookups[i]? = some l) (htarget : l.target = target) {source : PeerId}
    {answer : Except Error (List KadPeer)} (hmem : .answer i source answer ∈ h)
    (hnames : (Discovery.findNode target source answer).Names target) :
    (s.peerBook.get target).isSome := by
  induction hr generalizing l with
  | start => cases hmem
  | @snoc h s s' op hr hkeeps hst ih =>
    obtain ⟨-, result, hst, rfl⟩ := hst
    rcases List.mem_append.1 hmem with hold | hnew
    · -- the lookup has been there before
      have hi : i < s.lookups.length := by
        by_contra hi
        have hnone := (routerLts_lookup hr.run).1 i target (Nat.le_of_not_lt hi)
        have hans : .answered source ((FindNode.route target source answer).map Prod.fst) ∈
            h.flatMap (lookupEvents target i) :=
          (mem_lookupEvents_iff hr.run).2 ⟨answer, hold, rfl⟩
        rw [hnone] at hans
        cases hans
      obtain ⟨l₀, hl₀⟩ : ∃ l₀, s.lookups[i]? = some l₀ := ⟨_, List.getElem?_eq_getElem hi⟩
      exact hst.isSome_get hkeeps (ih hl₀ ((hst.target_eq hl₀ hl).symm.trans htarget) hold)
    · cases List.mem_singleton.1 hnew
      have htarget' {l₀ : FindNodeCall} (hl₀ : s.lookups[i]? = some l₀) : l₀.target = target :=
        (hst.target_eq hl₀ hl).symm.trans htarget
      cases hst with
      | @answer _ l₀ _ _ route hl₀ ha =>
        obtain rfl : l₀.target = target := htarget' hl₀
        exact RawMemoryPeerBook.isSome_insertAll_of_mem (exists_mem_infos_iff.2 hnames)

/-- **A lookup that finds nothing has asked everybody that it had to ask.**  An answer that names
the target ends the lookup, and `find_node` returns the target.  A lookup that ends without it,
though other tasks leave the target in the peer book and the target was not among the peers that the
lookup started with, has never been told of the target.  The peers that it returns have answered,
and it has made a query, which has ended with an answer or an error, to every peer that it was told
of, except to those that twenty of the returned ones are closer than. -/
theorem find_node_complete
    (hr : (routerLts env localId seeds).RunWhere (KeepsListed target) h s)
    (hl : s.lookups[i]? = some l) (htarget : l.target = target) :
    ∃ known, Started env localId seeds target h known ∧
      (∀ source answer, .answer i source answer ∈ h →
        (Discovery.findNode target source answer).Names target →
        (∃ R, l.route.pc = .returned R) ∧ (s.peerBook.get target).isSome) ∧
      ∀ R, l.route.pc = .returned R → s.peerBook.get target = none → target ∉ known →
        (∀ peerId ∈ R, ∃ closerPeers, .answer i peerId (.ok closerPeers) ∈ h) ∧
        ∀ peerId, (peerId ∈ known ∨ ∃ source answer, .answer i source answer ∈ h ∧
            (Discovery.findNode target source answer).Names peerId) →
          peerId ≠ target ∧ ((∃ answer, .answer i peerId answer ∈ h) ∨
            Beaten (KBucketKey.ofPeerId target).peerDistance 20 R peerId) := by
  subst htarget
  obtain ⟨known, hstarted, hrun⟩ := (routerLts_lookup hr.run).2 i l hl
  have hlisted {source : PeerId} {answer : Except Error (List KadPeer)}
      (hmem : .answer i source answer ∈ h)
      (hnames : (Discovery.findNode l.target source answer).Names l.target) :
      (s.peerBook.get l.target).isSome := routerLts_listed hr hl rfl hmem hnames
  refine ⟨known, hstarted, fun source answer hmem hnames => ⟨?_, hlisted hmem hnames⟩, ?_⟩
  · refine routeLts_finished hrun ⟨source, ?_⟩
    exact (mem_lookupEvents_iff hr.run).2 ⟨answer, hmem, FindNode.finished_of_names hnames⟩
  · intro R hret hnone hknown
    -- no answer has named the target
    have hnames {source : PeerId} {answer : Except Error (List KadPeer)}
        (hmem : .answer i source answer ∈ h) :
        ¬ (Discovery.findNode l.target source answer).Names l.target := by
      intro hnames
      have hsome := hlisted hmem hnames
      rw [hnone] at hsome
      cases hsome
    -- so the lookup has not heard of it
    have hunheard : ¬ Heard known (h.flatMap (lookupEvents l.target i)) l.target := by
      rintro (hmem | ⟨source, peers, hmem, hpeers⟩)
      · exact hknown hmem
      · obtain ⟨answer, -, hroute⟩ := (mem_lookupEvents_iff hr.run).1 hmem
        exact FindNode.not_mem_closest hroute hpeers
    have hfin : ¬ Finished (h.flatMap (lookupEvents l.target i)) := by
      rintro ⟨source, hmem⟩
      obtain ⟨answer, hanswer, hroute⟩ := (mem_lookupEvents_iff hr.run).1 hmem
      rcases FindNode.of_finished hroute with rfl | htold
      · exact hunheard ((routeLts_heard hrun).2 _ _ hmem)
      · exact hnames hanswer htold
    obtain ⟨hanswered, hasked⟩ := routeLts_returned hrun hret hfin
    have hanswer {peerId : PeerId}
        (hmem : ∃ result, .answered peerId result ∈ h.flatMap (lookupEvents l.target i)) :
        ∃ answer, .answer i peerId answer ∈ h := by
      obtain ⟨result, hmem⟩ := hmem
      obtain ⟨answer, hmem, -⟩ := (mem_lookupEvents_iff hr.run).1 hmem
      exact ⟨answer, hmem⟩
    refine ⟨fun peerId hmem => ?_, fun peerId hheard => ?_⟩
    · obtain ⟨peers, hmem⟩ := hanswered peerId hmem
      obtain ⟨answer, hmem, hroute⟩ := (mem_lookupEvents_iff hr.run).1 hmem
      obtain ⟨closerPeers, rfl⟩ := FindNode.ok_of_closest hroute
      exact ⟨closerPeers, hmem⟩
    have hpeer : Heard known (h.flatMap (lookupEvents l.target i)) peerId := by
      rcases hheard with hmem | ⟨source, answer, hmem, hnamed⟩
      · exact .inl hmem
      · obtain ⟨peers, hroute, hpeers⟩ := FindNode.closest_of_names hnamed (hnames hmem)
        exact .inr ⟨source, peers, (mem_lookupEvents_iff hr.run).2 ⟨answer, hmem, hroute⟩, hpeers⟩
    exact ⟨fun heq => hunheard (heq ▸ hpeer), (hasked peerId hpeer).imp_left hanswer⟩

end

section Sample

attribute [local instance] Libp2p.loopback Sha256.ofKeys plainText

theorem routerLts_concat {env : RouterEnv} {localId target : PeerId}
    {seeds : List (Except String Multiaddr)} {h : List RouterOp} {s : RouterState} {op : RouterOp}
    {result : Except Panic RouterState}
    (hr : (routerLts env localId seeds).RunWhere (KeepsListed target) h s) (hs : s.panic = none)
    (hst : RouterStep env s op result) (hkeeps : KeepsListed target h s op) :
    (routerLts env localId seeds).RunWhere (KeepsListed target) (h ++ [op]) (s.after result) :=
  hr.snoc hkeeps ⟨hs, result, hst, rfl⟩

theorem closest_tableOfB :
    tableOfB.table.closest 256 (.ofPeerId keyC.toPeerId) = .ok (some [keyB.toPeerId]) := by
  obtain ⟨T, hT⟩ : (⟨tableOfB, []⟩ : KadState 20).Wf (.ofPeerId keyA.toPeerId) :=
    routerLts_wf reachable_lookingUpC
  have hscan : tableOfB.table.scan (tableOfB.table.startIndex (.ofPeerId keyC.toPeerId)) =
      [keyB.toPeerId] :=
    List.perm_singleton.1 (hT.table.searchable.scan_perm (tableOfB.table.startIndex_lt _))
  calc tableOfB.table.closest 256 (.ofPeerId keyC.toPeerId)
      = .ok (some ((tableOfB.table.scan
          (tableOfB.table.startIndex (.ofPeerId keyC.toPeerId))).take 20)) :=
        hT.table.searchable.closest_spec (Nat.le_refl 256) _
    _ = .ok (some [keyB.toPeerId]) := by rw [hscan]; rfl

/-- The peer with key `keyB` is asked for the one with key `keyC`, and knows nobody. -/
def asksB : List RouterOp :=
  [.seed, .find keyC.toPeerId, .turn 0 (.query keyB.toPeerId), .answer 0 keyB.toPeerId (.ok []),
    .turn 0 .proceed, .turn 0 .done]

theorem run_asksB : (routerLts besideItself keyA.toPeerId [.ok seedOfB]).RunWhere
    (KeepsListed keyC.toPeerId) asksB (lookingUpC bookOfB
      [routeToC [keyB.toPeerId] {keyB.toPeerId} [] [] (.returned [keyB.toPeerId])]) := by
  have hk : ((KBucketKey.ofPeerId keyB.toPeerId).distance
      (.ofPeerId keyA.toPeerId)).kIndex = some 255 := by decide
  have hseed : ({ seedingB with seeding := [] } : RouterState).insertSeed
      (.discovered keyB.toPeerId [seedOfB]) = .ok (lookingUpC bookOfB []) := by
    simp [RouterState.insertSeed, RouterState.insert, seedingB, KBucketTable.insert,
      KBucketTable.insertPrv, RawKBucketTable.tryInsert, RawKBucketTable.empty, hk, fetchAdd,
      Except.map, lookingUpC, tableOfB, RawKBucketTable.addBucket, KBucket.new, PeerInfo.discovered,
      bookOfB, bind, Except.bind, pure, Except.pure]
  have hfind : (lookingUpC bookOfB []).findNode besideItself.concurrency keyC.toPeerId =
      .ok (lookingUpC bookOfB [routeToC [] ∅ [keyB.toPeerId] [] .outer]) := by
    show (tableOfB.table.closest 256 (.ofPeerId keyC.toPeerId) >>= _ : Except Panic RouterState) = _
    rw [closest_tableOfB]
    rfl
  have hquery : (routeToC [] ∅ [keyB.toPeerId] [] .outer).next =
      some (.query keyB.toPeerId, routeToC [] {keyB.toPeerId} [] [keyB.toPeerId] .inner) := rfl
  have hanswer : (routeToC [] {keyB.toPeerId} [] [keyB.toPeerId] .inner).answer keyB.toPeerId
      ((FindNode.route keyC.toPeerId keyB.toPeerId (.ok [])).map Prod.fst) =
      some (routeToC [keyB.toPeerId] {keyB.toPeerId} [] [] .inner) := rfl
  have hproceed : (routeToC [keyB.toPeerId] {keyB.toPeerId} [] [] .inner).next =
      some (.proceed, routeToC [keyB.toPeerId] {keyB.toPeerId} [] [] .outer) := rfl
  have hdone : (routeToC [keyB.toPeerId] {keyB.toPeerId} [] [] .outer).next =
      some (.done, routeToC [keyB.toPeerId] {keyB.toPeerId} [] [] (.returned [keyB.toPeerId])) :=
    rfl
  have h₀ : (routerLts besideItself keyA.toPeerId [.ok seedOfB]).RunWhere
      (KeepsListed keyC.toPeerId) [] seedingB := .start ⟨_, .id, _, _, rfl, rfl, rfl⟩
  have h₁ := routerLts_concat h₀ rfl (.seed rfl) trivial
  rw [hseed] at h₁
  have hfound : RouterStep besideItself (lookingUpC bookOfB []) (.find keyC.toPeerId) _ := .find rfl
  rw [hfind] at hfound
  have h₂ := routerLts_concat h₁ rfl hfound trivial
  have h₃ := routerLts_concat h₂ rfl (.turn (i := 0) rfl hquery) trivial
  have h₄ := routerLts_concat h₃ rfl (.answer (i := 0) rfl hanswer) trivial
  have h₅ := routerLts_concat h₄ rfl (.turn (i := 0) rfl hproceed) trivial
  exact routerLts_concat h₅ rfl (.turn (i := 0) rfl hdone) trivial

theorem find_node_complete_asksB : ∃ known,
    Started besideItself keyA.toPeerId [.ok seedOfB] keyC.toPeerId asksB known ∧
    (keyC.toPeerId ∉ known → ∀ peerId ∈ known,
      (∃ answer, .answer 0 peerId answer ∈ asksB) ∨
        Beaten (KBucketKey.ofPeerId keyC.toPeerId).peerDistance 20 [keyB.toPeerId] peerId) := by
  obtain ⟨known, hstarted, -, hreturned⟩ := find_node_complete run_asksB (i := 0) rfl rfl
  refine ⟨known, hstarted, fun hknown peerId hmem => ?_⟩
  obtain ⟨-, hasked⟩ := hreturned [keyB.toPeerId] rfl rfl hknown
  exact (hasked peerId (.inl hmem)).2

end Sample

end XStack
