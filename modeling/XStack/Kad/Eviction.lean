import XStack.Kad.Invariant

/-!
# Evictions and ping tasks

`KBucketTable::insert` of a peer whose bucket is full drops the least recently seen peer of the
bucket, and spawns a task that pings this peer and then inserts one of the two.  Between the two
steps other inserts and other ping tasks run.  `kadLts` is this system: the table, and the ping
tasks that have not ended yet.

Two things go wrong.  The task inserts the new peer when the ping succeeds and the pinged one when
it fails, which is the wrong way round (`eviction_rule_broken`).  And its insert can find the bucket
full again; it then drops a further peer, which nobody pings and nobody puts back
(`peer_slot_lost`).  Only as long as this does not happen, a bucket that was full is full again
whenever no task is pending (`bucket_stays_full`).

## Main definitions

* `KadState`, `KadState.step`, `kadLts` : the system.
* `EvictionRule` : what Kademlia prescribes for the bucket after the ping.
* `FindsRoom` : a ping task does not drop a peer from a full bucket.
-/

namespace XStack

/-- The routing table and the pending ping tasks. -/
structure KadState (K : ℕ) where
  /-- The table. -/
  table : KBucketTable K
  /-- The tasks whose ping has not been answered yet. -/
  pings : List PingTask

/-- The steps of the system. -/
inductive KadOp where
  /-- `KBucketTable::insert`. -/
  | insert (peerId : PeerId)
  /-- The ping of a task succeeds or fails, and the task ends. -/
  | pinged (task : PingTask) (success : Bool)
  deriving DecidableEq, Repr

namespace KadOp

/-- The peer that a step passes to `insert_prv`. -/
def target : KadOp → PeerId
  | insert peerId => peerId
  | pinged task success => task.reinserted success

/-- The pending tasks after a step in which `insert_prv` reported `pop`. -/
def pingsAfter (pop : Option PeerId) (pings : List PingTask) : KadOp → List PingTask
  | insert peerId => (pop.map (PingTask.mk peerId)).toList ++ pings
  | pinged task _ => pings.erase task

theorem mem_pingsAfter {op : KadOp} {pop : Option PeerId} {pings : List PingTask}
    {task : PingTask} (hmem : task ∈ pings) (hne : ∀ success, op ≠ pinged task success) :
    task ∈ op.pingsAfter pop pings := by
  cases op with
  | insert peerId => exact List.mem_append_right _ hmem
  | pinged task' success =>
    refine (List.mem_erase_of_ne ?_).2 hmem
    rintro rfl
    exact hne success rfl

end KadOp

section System

variable [Sha256] {K : ℕ} {localKey : KBucketKey}

/-- A step.  One that panics leaves the table as it is. -/
def KadState.step (s : KadState K) : KadOp → Option (KadState K)
  | .insert peerId =>
    match s.table.insert peerId with
    | .ok (task, table) => some ⟨table, task.toList ++ s.pings⟩
    | .error _ => some s
  | .pinged task success =>
    if task ∈ s.pings then
      match s.table.finish task success with
      | .ok table => some ⟨table, s.pings.erase task⟩
      | .error _ => some ⟨s.table, s.pings.erase task⟩
    else none

/-- The runs of a node with the given key. -/
def kadLts (K : ℕ) (localKey : KBucketKey) : Lts (KadState K) KadOp where
  init s := s = ⟨⟨0, .empty localKey⟩, []⟩
  step s op s' := s.step op = some s'

namespace KadState

/-- The peers in the bucket of a k-index. -/
def peersAt (s : KadState K) (i : ℕ) : List PeerId := s.table.table.peersAt i

theorem peersAt_eq {s : KadState K} {T : Buckets localKey.place K}
    (h : s.table.Represents T) (i : ℕ) : s.peersAt i = (T.bucket i).items := h.table.peersAt_eq i

theorem step_cases {s s' : KadState K} {op : KadOp} (hst : s.step op = some s') :
    (∃ panic, s.table.insertPrv op.target = .error panic ∧ s'.table = s.table ∧
      s'.pings = op.pingsAfter none s.pings) ∨
    ∃ pop table, s.table.insertPrv op.target = .ok (pop, table) ∧ s'.table = table ∧
      s'.pings = op.pingsAfter pop s.pings := by
  cases op with
  | insert peerId =>
    rcases hins : s.table.insertPrv peerId with panic | ⟨pop, table⟩
    · simp only [step, KBucketTable.insert, hins] at hst
      cases hst
      exact .inl ⟨panic, hins, rfl, rfl⟩
    · simp only [step, KBucketTable.insert, hins] at hst
      cases hst
      exact .inr ⟨pop, table, hins, rfl, rfl⟩
  | pinged task success =>
    rcases hins : s.table.insertPrv (task.reinserted success) with panic | ⟨pop, table⟩
    · simp only [step, KBucketTable.finish, hins] at hst
      split_ifs at hst
      cases hst
      exact .inl ⟨panic, hins, rfl, rfl⟩
    · simp only [step, KBucketTable.finish, hins] at hst
      split_ifs at hst
      cases hst
      exact .inr ⟨pop, table, hins, rfl, rfl⟩

/-- **What a step does**: it offers a peer to the family the table stores, unless the peer has the
key of the local node. -/
theorem step_spec (hK : 0 < K) {s s' : KadState K} {op : KadOp} {T : Buckets localKey.place K}
    (h : s.table.Represents T) (hst : s.step op = some s') :
    (localKey.place op.target = none ∧ s'.table = s.table ∧
      s'.pings = op.pingsAfter none s.pings) ∨
    ∃ i, ∃ hi : localKey.place op.target = some i,
      s'.table.Represents (T.offer op.target hi).2 ∧
      s'.pings = op.pingsAfter (T.offer op.target hi).1 s.pings := by
  rcases Option.eq_none_or_eq_some (localKey.place op.target) with hi | ⟨i, hi⟩
  · rcases step_cases hst with ⟨panic, -, hsame⟩ | ⟨pop, table, hins, -⟩
    · exact .inl ⟨hi, hsame⟩
    · -- an insert that succeeds has a k-index
      obtain ⟨i, hi'⟩ := KBucketTable.place_of_insertPrv h.table.localKey_eq hins
      rw [hi] at hi'
      cases hi'
  · obtain ⟨table, hins, hrep, -⟩ := KBucketTable.insertPrv_spec hK h hi
    rcases step_cases hst with ⟨panic, hpanic, -⟩ | ⟨pop, table', hins', rfl, hpings⟩
    · cases hins.symm.trans hpanic
    · cases hins.symm.trans hins'
      exact .inr ⟨i, hi, hrep, hpings⟩

/-- The table of a state stores a family of buckets. -/
def Wf (localKey : KBucketKey) (s : KadState K) : Prop :=
  ∃ T : Buckets localKey.place K, s.table.Represents T

end KadState

theorem KadState.Wf.step (hK : 0 < K) {s s' : KadState K} {op : KadOp} (h : s.Wf localKey)
    (hst : s.step op = some s') : s'.Wf localKey := by
  obtain ⟨T, hT⟩ := h
  rcases step_spec hK hT hst with ⟨-, htable, -⟩ | ⟨i, hi, hT', -⟩
  · exact ⟨T, htable ▸ hT⟩
  · exact ⟨_, hT'⟩

theorem kadLts_wf (hK : 0 < K) {s : KadState K} (h : (kadLts K localKey).Reachable s) :
    s.Wf localKey := by
  refine h.invariant ?_ fun s op s' hwf hst => hwf.step hK hst
  rintro s rfl
  exact ⟨_, RawKBucketTable.represents_empty, rfl⟩

theorem reachable_of_foldlM {ops : List KadOp} {s : KadState K}
    (h : ops.foldlM KadState.step ⟨⟨0, .empty localKey⟩, []⟩ = some s) :
    (kadLts K localKey).Reachable s := by
  have hstart : (kadLts K localKey).Run [] ⟨⟨0, .empty localKey⟩, []⟩ := .start rfl
  exact ⟨_, hstart.foldlM (fun _ _ _ hst => hst) h⟩

end System

/-! ### The eviction rule -/

section Rule

variable [Sha256] {K : ℕ} {localKey : KBucketKey}

/-- What is prescribed for a full bucket of `lru` and `rest`, least recently seen first, after an
insert of `peerId` and a ping of `lru` that succeeded or failed. -/
def EvictionRule (peerId lru : PeerId) (rest after : List PeerId) : Bool → Prop
  | true => after.getLast? = some lru ∧ (∀ q ∈ rest, q ∈ after) ∧ peerId ∉ after
  | false => lru ∉ after ∧ peerId ∈ after ∧ after.filter (· ≠ peerId) = rest

/-- The step inserts no peer into the bucket of the k-index `i`. -/
def Elsewhere (localKey : KBucketKey) (i : ℕ) (_ : List KadOp) (_ : KadState K) (op : KadOp) :
    Prop := localKey.place op.target ≠ some i

/-- An insert into a full bucket takes out the least recently seen peer and spawns a task. -/
theorem KadState.insert_full {s s₁ : KadState K} (h : s.Wf localKey) {peerId lru : PeerId}
    {i : ℕ} {rest : List PeerId} (hi : localKey.place peerId = some i)
    (hfull : s.peersAt i = lru :: rest) (hlen : rest.length + 1 = K) (hnew : peerId ∉ lru :: rest)
    (hst : s.step (.insert peerId) = some s₁) :
    s₁.Wf localKey ∧ s₁.peersAt i = rest ∧ ⟨peerId, lru⟩ ∈ s₁.pings := by
  obtain ⟨T, hT⟩ := h
  have hitems := (peersAt_eq hT i).symm.trans hfull
  have hoffer : (T.bucket i).offer peerId = (some lru, (T.bucket i).pop) :=
    Recency.offer_of_full (hitems ▸ hnew) hitems (by rw [hitems, List.length_cons, hlen])
  rcases step_spec (by omega) hT hst with ⟨hnone, -⟩ | ⟨j, hj, hT₁, hpings⟩
  · rw [KadOp.target, hi] at hnone
    cases hnone
  · have hji : j = i := Option.some.inj (hj.symm.trans hi)
    subst hji
    refine ⟨⟨_, hT₁⟩, ?_, ?_⟩
    · rw [peersAt_eq hT₁, T.offer_self hj, KadOp.target, hoffer, Recency.pop_items, hitems]
      rfl
    · rw [hpings, T.offer_fst hj, KadOp.target, hoffer]
      exact List.mem_append_left _ (List.mem_singleton_self _)

/-- Steps that insert into other buckets leave a bucket and its tasks alone. -/
theorem KadState.elsewhere_run (hK : 0 < K) {s s' : KadState K} {i : ℕ} {task : PingTask}
    {h : List KadOp} (hs : s.Wf localKey) (htask : task ∈ s.pings)
    (hplace : ∀ success, localKey.place (task.reinserted success) = some i)
    (hrun : ((kadLts K localKey).startingAt s).RunWhere (Elsewhere localKey i) h s') :
    s'.Wf localKey ∧ s'.peersAt i = s.peersAt i ∧ task ∈ s'.pings := by
  refine hrun.invariant (I := fun _ s' => s'.Wf localKey ∧ s'.peersAt i = s.peersAt i ∧
    task ∈ s'.pings) ?_ ?_
  · rintro s' rfl
    exact ⟨hs, rfl, htask⟩
  · rintro h s₁ op s₂ - ⟨⟨T, hT⟩, hpeers, hmem⟩ hop hst
    -- the task that ends is another one, since it does not insert into this bucket
    have hkeep : ∀ pop, task ∈ op.pingsAfter pop s₁.pings := by
      refine fun pop => KadOp.mem_pingsAfter hmem ?_
      rintro success rfl
      exact hop (hplace success)
    rcases step_spec hK hT hst with ⟨-, htable, hpings⟩ | ⟨j, hj, hT₂, hpings⟩
    · exact ⟨⟨T, htable ▸ hT⟩, by rw [← hpeers, peersAt, htable, peersAt], hpings ▸ hkeep _⟩
    · have hji : i ≠ j := by
        rintro rfl
        exact hop hj
      refine ⟨⟨_, hT₂⟩, ?_, hpings ▸ hkeep _⟩
      rw [← hpeers, peersAt_eq hT₂, peersAt_eq hT, T.offer_ne hj hji]

/-- A task whose bucket has room for the peer it inserts adds it as the most recent one. -/
theorem KadState.finish_room {s : KadState K} (h : s.Wf localKey) {task : PingTask} {i : ℕ}
    {success : Bool} (htask : task ∈ s.pings)
    (hi : localKey.place (task.reinserted success) = some i)
    (hnew : task.reinserted success ∉ s.peersAt i) (hroom : (s.peersAt i).length < K) :
    ∃ s', s.step (.pinged task success) = some s' ∧
      s'.peersAt i = s.peersAt i ++ [task.reinserted success] := by
  obtain ⟨T, hT⟩ := h
  rw [peersAt_eq hT] at hnew hroom ⊢
  obtain ⟨table, hins, hT', -⟩ := KBucketTable.insertPrv_spec (by omega) hT hi
  refine ⟨⟨table, s.pings.erase task⟩, ?_, ?_⟩
  · simp only [step, htask, ↓reduceIte, KBucketTable.finish, hins]
    rfl
  · rw [peersAt, hT'.table.peersAt_eq i, T.offer_self hi, Recency.offer_of_room hnew hroom]
    rfl

/-- **The eviction rule is broken for every full bucket and whatever the ping says**: a peer whose
ping succeeds is replaced, and one whose ping fails stays. -/
theorem eviction_rule_broken {s s₁ s₂ : KadState K} (hs : s.Wf localKey) {peerId lru : PeerId}
    {i : ℕ} {rest : List PeerId} (hi : localKey.place peerId = some i)
    (hfull : s.peersAt i = lru :: rest) (hlen : (lru :: rest).length = K)
    (hnew : peerId ∉ lru :: rest) (hins : s.step (.insert peerId) = some s₁) {h : List KadOp}
    (hrun : ((kadLts K localKey).startingAt s₁).RunWhere (Elsewhere localKey i) h s₂)
    (success : Bool) :
    ∃ s₃, s₂.step (.pinged ⟨peerId, lru⟩ success) = some s₃ ∧
      ¬ EvictionRule peerId lru rest (s₃.peersAt i) success := by
  rw [List.length_cons] at hlen
  have hlru : localKey.place lru = some i := by
    obtain ⟨T, hT⟩ := hs
    exact T.own i lru (by rw [← KadState.peersAt_eq hT, hfull]; exact List.mem_cons_self)
  have hplace : ∀ success, localKey.place ((⟨peerId, lru⟩ : PingTask).reinserted success) =
      some i := by
    intro success
    cases success with
    | true => exact hi
    | false => exact hlru
  have hnodup : (lru :: rest).Nodup := by
    obtain ⟨T, hT⟩ := hs
    rw [← hfull, KadState.peersAt_eq hT]
    exact (T.bucket i).nodup
  obtain ⟨hwf₁, hpeers₁, htask₁⟩ := KadState.insert_full hs hi hfull hlen hnew hins
  obtain ⟨hwf₂, hpeers₂, htask₂⟩ :=
    KadState.elsewhere_run (by omega) hwf₁ htask₁ hplace hrun
  rw [hpeers₁] at hpeers₂
  -- the insert has already evicted `lru`, so there is room for the one that comes back
  have hout : (⟨peerId, lru⟩ : PingTask).reinserted success ∉ rest := by
    cases success
    · exact (List.nodup_cons.1 hnodup).1
    · exact fun hmem => hnew (List.mem_cons_of_mem _ hmem)
  obtain ⟨s₃, hst, hpeers₃⟩ := KadState.finish_room hwf₂ htask₂ (hplace success)
    (hpeers₂ ▸ hout) (by rw [hpeers₂]; omega)
  refine ⟨s₃, hst, ?_⟩
  rw [hpeers₃, hpeers₂]
  cases success with
  | true => exact fun hrule => hrule.2.2 (List.mem_append_right _ (List.mem_singleton_self _))
  | false => exact fun hrule => hrule.1 (List.mem_append_right _ (List.mem_singleton_self _))

end Rule

section RuleSample

attribute [local instance] Sha256.ofNodes

/-- Node 0 before it has met anybody. -/
def freshNode (K : ℕ) : KadState K := ⟨⟨0, .empty (.ofPeerId (node 0))⟩, []⟩

/-- The rule is broken when node 5 is inserted into the bucket of nodes 2 and 3. -/
theorem eviction_rule_broken_node5 :
    ∃ s₁ s₃ : KadState 2, s₁.step (.pinged ⟨node 5, node 2⟩ false) = some s₃ ∧
      ¬ EvictionRule (node 5) (node 2) [node 3] (s₃.peersAt 255) false := by
  have hrun : ([.insert (node 2), .insert (node 3)].foldlM KadState.step (freshNode 2)).bind
      (fun s₀ => (s₀.step (.insert (node 5))).map fun _ => s₀.peersAt 255) =
      some [node 2, node 3] := by decide +kernel
  obtain ⟨s₀, h₀, hrun⟩ := Option.bind_eq_some_iff.1 hrun
  obtain ⟨s₁, h₁, hpeers⟩ := Option.map_eq_some_iff.1 hrun
  have hwf := kadLts_wf (by decide) (reachable_of_foldlM h₀)
  exact ⟨s₁, eviction_rule_broken hwf (by decide) hpeers rfl (by decide) h₁ (.start rfl) false⟩

/-- Node 2 is dropped although its ping succeeds. -/
theorem pinged_peer_dropped :
    ∃ s₀ s₁ s₂ : KadState 2, (kadLts 2 (.ofPeerId (node 0))).Reachable s₀ ∧
      s₀.peersAt 255 = [node 2, node 3] ∧ s₀.step (.insert (node 5)) = some s₁ ∧
      s₁.step (.pinged ⟨node 5, node 2⟩ true) = some s₂ ∧
      ¬ EvictionRule (node 5) (node 2) [node 3] (s₂.peersAt 255) true := by
  have hrun : ([.insert (node 2), .insert (node 3)].foldlM KadState.step (freshNode 2)).bind
      (fun s₀ => (s₀.step (.insert (node 5))).bind fun s₁ =>
        (s₁.step (.pinged ⟨node 5, node 2⟩ true)).map fun s₂ => (s₀.peersAt 255, s₂.peersAt 255)) =
      some ([node 2, node 3], [node 3, node 5]) := by decide +kernel
  obtain ⟨s₀, h₀, hrun⟩ := Option.bind_eq_some_iff.1 hrun
  obtain ⟨s₁, h₁, hrun⟩ := Option.bind_eq_some_iff.1 hrun
  obtain ⟨s₂, h₂, hpeers⟩ := Option.map_eq_some_iff.1 hrun
  obtain ⟨hpeers₀, hpeers₂⟩ := Prod.mk.inj hpeers
  refine ⟨s₀, s₁, s₂, reachable_of_foldlM h₀, hpeers₀, h₁, h₂, ?_⟩
  rw [hpeers₂]
  exact fun hrule => absurd hrule.1 (by decide)

end RuleSample

/-! ### Peer slots -/

section Slots

variable [Sha256] {K : ℕ} {localKey : KBucketKey}

/-- A ping task that ends does not find the bucket of the k-index `i` full and without the peer
that the task inserts. -/
def FindsRoom (localKey : KBucketKey) (i : ℕ) (_ : List KadOp) (s : KadState K) : KadOp → Prop
  | .insert _ => True
  | .pinged task success => localKey.place (task.reinserted success) = some i →
      task.reinserted success ∈ s.peersAt i ∨ (s.peersAt i).length < K

/-- The bucket is full, or one peer is missing and a pending task is going to insert one. -/
def KadState.Covered (localKey : KBucketKey) (i : ℕ) (s : KadState K) : Prop :=
  (s.peersAt i).length = K ∨
  (s.peersAt i).length + 1 = K ∧ ∃ task ∈ s.pings, ∀ success,
    localKey.place (task.reinserted success) = some i ∧ task.reinserted success ∉ s.peersAt i

/-- A pending task that covers a missing peer still does so after a step that leaves the members of
the bucket as they are, unless it is the task that ends. -/
theorem KadState.Covered.of_mem_iff {s s' : KadState K} {i : ℕ} {op : KadOp} {pop : Option PeerId}
    (hc : s.Covered localKey i) (hpings : s'.pings = op.pingsAfter pop s.pings)
    (hperm : (s'.peersAt i).Perm (s.peersAt i))
    (hop : localKey.place op.target = some i → op.target ∈ s.peersAt i) :
    s'.Covered localKey i := by
  rcases hc with hfull | ⟨hlen, task, hmem, htask⟩
  · exact .inl (hperm.length_eq.trans hfull)
  · refine .inr ⟨by rw [hperm.length_eq, hlen], task, ?_, fun success => ?_⟩
    · rw [hpings]
      refine KadOp.mem_pingsAfter hmem ?_
      rintro success rfl
      exact (htask success).2 (hop (htask success).1)
    · rw [hperm.mem_iff]
      exact htask success

theorem KadState.Covered.step (hK : 0 < K) {s s' : KadState K} {i : ℕ} {h : List KadOp}
    {op : KadOp} (hwf : s.Wf localKey) (hc : s.Covered localKey i)
    (hop : FindsRoom localKey i h s op) (hst : s.step op = some s') : s'.Covered localKey i := by
  obtain ⟨T, hT⟩ := hwf
  rcases step_spec hK hT hst with ⟨hnone, htable, hpings⟩ | ⟨j, hj, hT', hpings⟩
  · refine hc.of_mem_iff hpings ?_ fun hi => ?_
    · rw [peersAt, htable, peersAt]
    · rw [hnone] at hi
      cases hi
  · have hold := peersAt_eq hT i
    have hnew := peersAt_eq hT' i
    rcases eq_or_ne i j with rfl | hne
    · rw [T.offer_self hj] at hnew
      rw [T.offer_fst hj] at hpings
      rcases Recency.offer_cases hK (T.bucket i) op.target with
        ⟨hmem, he⟩ | ⟨hmem, hroom, he⟩ | ⟨hmem, hfull, lru, rest, hitems, he⟩
      · -- the peer is moved to the end
        rw [he] at hnew
        refine hc.of_mem_iff hpings ?_ fun _ => hold ▸ hmem
        rw [hnew, hold]
        exact (T.bucket i).touch_perm hmem
      · -- the peer is added, and there was room for just one
        rw [he, Recency.push_items] at hnew
        left
        rw [hnew, List.length_append, List.length_singleton, ← hold]
        rw [← hold] at hroom
        rcases hc with hfull | ⟨hlen, -⟩ <;> omega
      · -- the bucket was full, so the step is an insert, and its task puts a peer back
        rw [he, Recency.pop_items, hitems] at hnew
        rw [he] at hpings
        have hnodup := (T.bucket i).nodup
        rw [hitems] at hfull hmem hnodup
        refine .inr ⟨by rw [hnew]; exact hfull, ?_⟩
        cases op with
        | insert peerId =>
          refine ⟨⟨peerId, lru⟩, hpings ▸ List.mem_append_left _ (List.mem_singleton_self _),
            fun success => ?_⟩
          rw [hnew]
          cases success with
          | true => exact ⟨hj, fun hrest => hmem (List.mem_cons_of_mem _ hrest)⟩
          | false =>
            exact ⟨T.own i lru (hitems ▸ List.mem_cons_self), (List.nodup_cons.1 hnodup).1⟩
        | pinged task success =>
          rcases hop hj with hin | hlt
          · rw [hold, hitems] at hin
            exact absurd hin hmem
          · rw [hold, hitems] at hlt
            omega
    · rw [T.offer_ne hj hne] at hnew
      refine hc.of_mem_iff hpings (by rw [hnew, hold]) ?_
      intro hi
      rw [hj] at hi
      cases hi
      exact absurd rfl hne

/-- **When no peer slot is lost.**  If, from some time on at which the bucket of the k-index `i` is
full, no ping task finds this bucket full and without the peer that the task inserts, then the
bucket is full whenever no task is pending. -/
theorem bucket_stays_full (hK : 0 < K) {s₁ s₂ : KadState K} {i : ℕ} {h : List KadOp}
    (h₁ : (kadLts K localKey).Reachable s₁) (hfull : (s₁.peersAt i).length = K)
    (hrun : ((kadLts K localKey).startingAt s₁).RunWhere (FindsRoom localKey i) h s₂)
    (hquiet : s₂.pings = []) : (s₂.peersAt i).length = K := by
  have hinv : s₂.Wf localKey ∧ s₂.Covered localKey i := by
    refine hrun.invariant (I := fun _ s => s.Wf localKey ∧ s.Covered localKey i) ?_ ?_
    · rintro s rfl
      exact ⟨kadLts_wf hK h₁, .inl hfull⟩
    · rintro h s op s' - ⟨hwf, hc⟩ hop hst
      exact ⟨hwf.step hK hst, hc.step hK hwf hop hst⟩
  rcases hinv.2 with hlen | ⟨-, task, hmem, -⟩
  · exact hlen
  · rw [hquiet] at hmem
    cases hmem

end Slots

section SlotsSample

attribute [local instance] Sha256.ofNodes

/-- Two inserts into a bucket of one peer: the ping task puts a peer back. -/
theorem bucket_stays_full_one :
    ∃ s₁ s₂ s₃ : KadState 1, s₁.step (.insert (node 3)) = some s₂ ∧
      s₂.step (.pinged ⟨node 3, node 2⟩ true) = some s₃ ∧ (s₃.peersAt 255).length = 1 := by
  have hrun : ([.insert (node 2)].foldlM KadState.step (freshNode 1)).bind (fun s₁ =>
      (s₁.step (.insert (node 3))).bind fun s₂ =>
        (s₂.step (.pinged ⟨node 3, node 2⟩ true)).map fun s₃ =>
          ((s₁.peersAt 255).length, (s₂.peersAt 255).length, s₃.pings)) = some (1, 0, []) := by
    decide +kernel
  obtain ⟨s₁, h₁, hrun⟩ := Option.bind_eq_some_iff.1 hrun
  obtain ⟨s₂, h₂, hrun⟩ := Option.bind_eq_some_iff.1 hrun
  obtain ⟨s₃, h₃, hs⟩ := Option.map_eq_some_iff.1 hrun
  obtain ⟨hfull, hs⟩ := Prod.mk.inj hs
  obtain ⟨hroom, hquiet⟩ := Prod.mk.inj hs
  have hinsert : ((kadLts 1 (.ofPeerId (node 0))).startingAt s₁).RunWhere
      (FindsRoom (.ofPeerId (node 0)) 255) [.insert (node 3)] s₂ :=
    Lts.RunWhere.snoc (.start rfl) trivial h₂
  have hfinds : FindsRoom (.ofPeerId (node 0)) 255 [.insert (node 3)] s₂
      (.pinged ⟨node 3, node 2⟩ true) := fun _ => .inr (by omega)
  exact ⟨s₁, s₂, s₃, h₂, h₃, bucket_stays_full (by decide) (reachable_of_foldlM h₁) hfull
    (hinsert.snoc hfinds h₃) hquiet⟩

/-- Three inserts into a bucket of one peer: the ping task of the second one drops the peer of the
third one, and the bucket is left empty. -/
theorem peer_slot_lost :
    ¬ ∀ (s₁ s₂ : KadState 1) (h : List KadOp), (kadLts 1 (.ofPeerId (node 0))).Reachable s₁ →
      (s₁.peersAt 255).length = 1 →
      ((kadLts 1 (.ofPeerId (node 0))).startingAt s₁).Run h s₂ → s₂.pings = [] →
      (s₂.peersAt 255).length = 1 := by
  intro hall
  have hrun : ([.insert (node 2)].foldlM KadState.step (freshNode 1)).bind (fun s₁ =>
      ([.insert (node 3), .insert (node 5), .pinged ⟨node 3, node 2⟩ true].foldlM
        KadState.step s₁).map fun s₂ =>
          ((s₁.peersAt 255).length, s₂.pings, (s₂.peersAt 255).length)) = some (1, [], 0) := by
    decide +kernel
  obtain ⟨s₁, h₁, hrun⟩ := Option.bind_eq_some_iff.1 hrun
  obtain ⟨s₂, h₂, hs⟩ := Option.map_eq_some_iff.1 hrun
  obtain ⟨hfull, hs⟩ := Prod.mk.inj hs
  obtain ⟨hquiet, hempty⟩ := Prod.mk.inj hs
  have hstart : ((kadLts 1 (.ofPeerId (node 0))).startingAt s₁).Run [] s₁ := .start rfl
  have hlen := hall s₁ s₂ _ (reachable_of_foldlM h₁) hfull
    (hstart.foldlM (fun _ _ _ hst => hst) h₂) hquiet
  omega

end SlotsSample

end XStack
