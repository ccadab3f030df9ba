import XStack.Connector.Limit

/-!
# The address index is not complete

As long as a dialled connection is in the pool, `by_raddr` is meant to find a connection under its
address.  There is one entry for an address, though, and any number of connections that report it:
two tasks may have dialled it at the same time, or a peer may have connected from it.  `remove`
deletes the entry whichever of them it takes out, and leaves the others without one
(`removed_by_another`).

A connection is outbound if it was when it entered the pool; adding it again, while it is in the
pool, changes neither this nor the index.

## Main definitions

* `PoolOp.marks` : the ids of the outbound connections, a ghost variable of the pool.
* `PoolState.Indexed` : the index is complete.
* `PoolOp.LeavesNone` : no outbound connection is left behind without an entry.

## Main results

* `PoolStep.pooled_iff` : the connections in the pool after a step.
* `index_complete_iff` : the runs in which the index is complete.
-/

namespace XStack

namespace PoolOp

/-- The operation puts a connection into the pool that was not there, or that it has just
purged. -/
def enters (s : PoolState) (conn : P2pConn) : PoolOp → Prop
  | .add order c _ =>
    c = conn ∧ ((s.pool.conns.get c.id).isNone ∨ c.id ∈ s.pool.purged s.links order)
  | _ => False

/-- The ids of the connections that were outbound when they entered the pool. -/
def marks (s : PoolState) (outbound : Set String) : PoolOp → Set String
  | .add order conn inbound =>
    if (s.pool.conns.get conn.id).isNone ∨ conn.id ∈ s.pool.purged s.links order then
      if inbound then outbound \ {conn.id} else insert conn.id outbound
    else outbound
  | _ => outbound

/-- No outbound connection is left behind without an entry: if the operation takes out a connection
that reports the same address as an outbound one that stays, it makes a new entry for this
address. -/
def LeavesNone [Libp2p] (outbound : Set String) (s : PoolState) (op : PoolOp) : Prop :=
  ∀ gone kept, s.pool.Pooled gone → gone.id ∈ op.removes s →
    s.pool.Pooled kept → kept.id ∉ op.removes s → kept.id ∈ outbound →
    gone.peerAddr = kept.peerAddr → (op.indexes s kept.peerAddr).isSome

end PoolOp

/-- **The index is complete**: `by_raddr` finds a connection under the address of every outbound
connection in the pool. -/
def PoolState.Indexed (outbound : Set String) (s : PoolState) : Prop :=
  ∀ conn, s.pool.Pooled conn → conn.id ∈ outbound →
    ∀ rng, ∃ found, s.pool.byRaddr rng conn.peerAddr = .ok (some found)

section

variable [Libp2p] {E : Established} {maxPoolSize : ℕ} {s s' : PoolState} {op : PoolOp}
  {conn : P2pConn} {outbound : Set String}

omit [Libp2p] in
theorem RawConnPool.Keyed.pooled_removed_iff {pool pool' : RawConnPool} {ids : List String}
    (hkeyed : pool.Keyed) (hkeyed' : pool'.Keyed)
    (hconns : ∀ id, pool'.conns.get id = if id ∈ ids then none else pool.conns.get id) :
    pool'.Pooled conn ↔ pool.Pooled conn ∧ conn.id ∉ ids := by
  constructor
  · rintro ⟨id, hc⟩
    obtain rfl := hkeyed' id conn hc
    rw [hconns] at hc
    split_ifs at hc with hmem
    exact ⟨⟨_, hc⟩, hmem⟩
  · rintro ⟨⟨id, hc⟩, hmem⟩
    obtain rfl := hkeyed id conn hc
    exact ⟨conn.id, by rw [hconns, if_neg hmem, hc]⟩

theorem RawConnPool.Keyed.pooled_store_self_iff {pool : RawConnPool} {c : P2pConn}
    (hkeyed : pool.Keyed) (inbound : Bool) (hid : conn.id = c.id) :
    (pool.store c inbound).Pooled conn ↔ c = conn := by
  constructor
  · rintro ⟨id, hc⟩
    obtain rfl := hkeyed.store c inbound id conn hc
    rw [RawConnPool.store_conns, hid, HashMap.get_insert_self] at hc
    exact Option.some.inj hc
  · rintro rfl
    exact ⟨c.id, by rw [RawConnPool.store_conns, HashMap.get_insert_self]⟩

/-- **The connections in the pool after a step**: the one that has entered, and those that were
there and were not taken out. -/
theorem PoolStep.pooled_iff (hg : s.Good E) (hst : PoolStep E s op s') :
    s'.pool.Pooled conn ↔
      op.enters s conn ∨ s.pool.Pooled conn ∧ conn.id ∉ op.removes s := by
  cases hst with
  | add order c inbound hE he =>
    obtain ⟨pool, links, hall, hpool, -, hconns⟩ :=
      RawConnPool.removeAll_spec (s.pool.purged s.links order) hg.1 s.links
    rw [RawConnPool.add, RawConnPool.checkLimits_eq, hall] at he
    cases he
    show (pool.store c inbound).Pooled conn ↔
      (c = conn ∧ ((s.pool.conns.get c.id).isNone ∨ c.id ∈ s.pool.purged s.links order)) ∨
        s.pool.Pooled conn ∧ conn.id ∉ s.pool.purged s.links order
    by_cases hid : conn.id = c.id
    · have hold : s.pool.Pooled conn → c = conn := by
        rintro ⟨id, hc⟩
        obtain rfl := hg.1.keyed id conn hc
        exact (hg.eq_of_id hE (hid ▸ hc)).symm
      rw [hpool.keyed.pooled_store_self_iff inbound hid]
      constructor
      · rintro rfl
        rcases hget : s.pool.conns.get c.id with _ | d
        · exact .inl ⟨rfl, .inl rfl⟩
        · rw [hg.eq_of_id hE hget] at hget
          by_cases hmem : c.id ∈ s.pool.purged s.links order
          · exact .inl ⟨rfl, .inr hmem⟩
          · exact .inr ⟨⟨_, hget⟩, hmem⟩
      · rintro (⟨heq, -⟩ | ⟨hc, -⟩)
        · exact heq
        · exact hold hc
    · rw [RawConnPool.pooled_store_iff hpool.keyed inbound hid,
        hg.1.keyed.pooled_removed_iff hpool.keyed hconns]
      have hne : c ≠ conn := fun heq => hid (heq ▸ rfl)
      simp [hne]
  | remove id he =>
    obtain ⟨pool, links, hremove, hpool, -, hconns⟩ := RawConnPool.remove_spec hg.1 s.links id
    have hids : ∀ id', pool.conns.get id' = if id' ∈ [id] then none else s.pool.conns.get id' := by
      simpa using hconns
    rw [hremove] at he
    cases he
    simpa [PoolOp.enters, PoolOp.removes] using hg.1.keyed.pooled_removed_iff hpool.keyed hids
  | checkLimits order he =>
    obtain ⟨pool, links, hall, hpool, -, hconns⟩ :=
      RawConnPool.removeAll_spec (s.pool.purged s.links order) hg.1 s.links
    rw [RawConnPool.checkLimits_eq, hall] at he
    cases he
    simpa [PoolOp.enters, PoolOp.removes] using hg.1.keyed.pooled_removed_iff hpool.keyed hconns
  | byRaddr | byPeerId | status => simp [PoolOp.enters, PoolOp.removes, RawConnPool.Pooled]

theorem PoolOp.indexes_of_enters (hin : op.enters s conn) (hmem : conn.id ∈ op.marks s outbound) :
    (op.indexes s conn.peerAddr).isSome := by
  cases op with
  | add order c inbound =>
    obtain ⟨rfl, hnew⟩ := hin
    rw [PoolOp.marks, if_pos hnew] at hmem
    cases inbound with
    | false =>
      show (if _ ∧ _ then some c.peerId else none).isSome = true
      rw [if_pos ⟨rfl, hnew⟩]
      rfl
    | true => exact absurd rfl hmem.2
  | remove | checkLimits | byRaddr | byPeerId | status => cases hin

omit [Libp2p] in
theorem PoolOp.mem_marks_iff (hkeyed : s.pool.Keyed) (hc : s.pool.Pooled conn)
    (hstays : conn.id ∉ op.removes s) : conn.id ∈ op.marks s outbound ↔ conn.id ∈ outbound := by
  cases op with
  | add order c inbound =>
    have hother : (s.pool.conns.get c.id).isNone ∨ c.id ∈ s.pool.purged s.links order →
        conn.id ≠ c.id := by
      intro hnew heq
      obtain ⟨id, hc⟩ := hc
      obtain rfl := hkeyed id conn hc
      rw [← heq, hc] at hnew
      exact hstays (hnew.resolve_left (by simp))
    rw [PoolOp.marks]
    split_ifs with hnew hin
    · simp [hother hnew]
    · simp [hother hnew]
    · rfl
  | remove | checkLimits | byRaddr | byPeerId | status => exact Iff.rfl

theorem PoolState.indexed_iff (hg : s.Good E) : s.Indexed outbound ↔
    ∀ conn, s.pool.Pooled conn → conn.id ∈ outbound →
      (s.pool.raddrs.get conn.peerAddr).isSome := by
  refine forall_congr' fun conn => imp_congr_right fun _ => imp_congr_right fun _ => ?_
  constructor
  · intro hfound
    obtain ⟨found, hfound⟩ := hfound .head
    rcases RawConnPool.byRaddr_spec hg.1 .head conn.peerAddr with ⟨_, _, hr, -⟩ | ⟨-, hnone⟩
    · rw [hr]
      rfl
    · rw [hfound] at hnone
      cases hnone
  · intro hr rng
    rcases RawConnPool.byRaddr_spec hg.1 rng conn.peerAddr with ⟨_, found, -, he, -⟩ | ⟨hr', -⟩
    · exact ⟨found, he⟩
    · rw [hr'] at hr
      cases hr

/-- A step keeps the index complete if and only if it leaves no outbound connection behind. -/
theorem PoolStep.indexed_iff (hg : s.Good E) (hst : PoolStep E s op s')
    (hindexed : s.Indexed outbound) :
    s'.Indexed (op.marks s outbound) ↔ op.LeavesNone outbound s := by
  rw [PoolState.indexed_iff hg] at hindexed
  rw [PoolState.indexed_iff (hst.good hg)]
  constructor
  · intro hindexed' gone kept hgone hout hkept hstays hmem haddr
    have hentry := hindexed' kept ((hst.pooled_iff hg).2 (.inr ⟨hkept, hstays⟩))
      ((PoolOp.mem_marks_iff hg.1.keyed hkept hstays).2 hmem)
    have hreported : s.pool.reported (op.removes s) kept.peerAddr = true := by
      obtain ⟨id, hgone⟩ := hgone
      obtain rfl := hg.1.keyed id gone hgone
      exact List.any_eq_true.2 ⟨gone.id, hout, by simp [hgone, haddr]⟩
    rw [hst.raddrs_get hg, hreported, if_pos rfl, Option.or_none] at hentry
    exact hentry
  · intro hleaves conn hpooled hmem
    rw [hst.raddrs_get hg]
    rcases (hst.pooled_iff hg).1 hpooled with henters | ⟨hstayed, hstays⟩
    · have hentry := PoolOp.indexes_of_enters henters hmem
      rw [Option.isSome_or, hentry, Bool.true_or]
    · have hmem₀ := (PoolOp.mem_marks_iff hg.1.keyed hstayed hstays).1 hmem
      rw [Option.isSome_or, Bool.or_eq_true]
      cases hreported : s.pool.reported (op.removes s) conn.peerAddr with
      | false => exact .inr (hindexed conn hstayed hmem₀)
      | true =>
        -- another connection with the address is taken out
        obtain ⟨id, hout, hany⟩ := List.any_eq_true.1 hreported
        obtain ⟨gone, hgone, haddr⟩ := (Option.any_eq_true _ _).1 hany
        obtain rfl := hg.1.keyed id gone hgone
        exact .inl (hleaves gone conn ⟨_, hgone⟩ hout hstayed hstays hmem₀ (by simpa using haddr))

/-- The runs of a pool, with the ids of its outbound connections. -/
def markedLts (E : Established) (maxPoolSize : ℕ) : Lts (PoolState × Set String) PoolOp :=
  (poolLts E maxPoolSize).withGhost ∅ fun s outbound op => op.marks s outbound

theorem PoolStep.marked (hst : PoolStep E s op s') (maxPoolSize : ℕ) (outbound : Set String) :
    (markedLts E maxPoolSize).step (s, outbound) op (s', op.marks s outbound) := ⟨hst, rfl⟩

theorem markedLts_good {h : List PoolOp} {s : PoolState × Set String}
    (hr : (markedLts E maxPoolSize).Run h s) : s.1.Good E := by
  induction hr with
  | start hs => exact PoolState.good_init hs.1
  | snoc _ hst hg => exact PoolStep.good hg hst.1

/-- **When the address index is complete**: it is so in all states of a run, if and only if no step
of the run leaves an outbound connection behind without an entry. -/
theorem index_complete_iff {h : List PoolOp} :
    (markedLts E maxPoolSize).RunWhere (fun _ s op => op.LeavesNone s.2 s.1) h (s, outbound) ↔
      (markedLts E maxPoolSize).RunWhere (fun _ s _ => s.1.Indexed s.2) h (s, outbound) ∧
        s.Indexed outbound := by
  refine Lts.RunWhere.visits_iff (A := markedLts E maxPoolSize)
    (I := fun s => PoolState.Indexed s.2 s.1) ?_ ?_ ?_
  · rintro s ⟨-, hs⟩ conn - hmem
    rw [hs] at hmem
    cases hmem
  · rintro h ⟨s, outbound⟩ op ⟨s', outbound'⟩ hr hs hleaves ⟨hst, rfl⟩
    exact (PoolStep.indexed_iff (markedLts_good hr.run) hst hs).2 hleaves
  · rintro h ⟨s, outbound⟩ op ⟨s', outbound'⟩ hr hs ⟨hst, rfl⟩ hs'
    exact (PoolStep.indexed_iff (markedLts_good hr) hst hs).1 hs'

end

section Sample

attribute [local instance] Libp2p.ed25519

/-- When one of two connections is removed, the other is not found under its address any more. -/
theorem removed_by_another :
    ¬ ∀ (E : Established) (maxPoolSize : ℕ) (h : List PoolOp) (s : PoolState)
      (outbound : Set String), (markedLts E maxPoolSize).Run h (s, outbound) →
        s.Indexed outbound := by
  intro hall
  let s₁ : PoolState := ⟨(RawConnPool.new 20).store (connTo "c0") false, idleLinks⟩
  let s₂ : PoolState := ⟨s₁.pool.store (connTo "c1") false, idleLinks⟩
  have hfirst : PoolStep toOneNode ⟨.new 20, idleLinks⟩ (.add .id (connTo "c0") false) s₁ :=
    .add _ _ _ ⟨_, rfl⟩ rfl
  have hsecond : PoolStep toOneNode s₁ (.add .id (connTo "c1") false) s₂ :=
    .add _ _ _ ⟨_, rfl⟩ rfl
  have hg : s₂.Good toOneNode := hsecond.good (hfirst.good (PoolState.good_init rfl))
  obtain ⟨pool, links, hremove, hpool, -, hconns⟩ := RawConnPool.remove_spec hg.1 idleLinks "c0"
  have start : (markedLts toOneNode 20).Run [] (⟨.new 20, idleLinks⟩, ∅) := .start ⟨rfl, rfl⟩
  have both := (start.snoc (hfirst.marked 20 _)).snoc (hsecond.marked 20 _)
  have removed := both.snoc (PoolStep.marked (.remove "c0" hremove) 20 _)
  have hmem : ∀ outbound, "c1" ∈ PoolOp.marks s₁ outbound (.add .id (connTo "c1") false) := by
    intro outbound
    rw [PoolOp.marks, if_pos (.inl rfl)]
    exact .inl rfl
  obtain ⟨found, hfound⟩ :=
    hall _ _ _ _ _ removed (connTo "c1") ⟨"c1", hconns "c1"⟩ (hmem _) .head
  have hentry : pool.raddrs.get (connTo "c1").peerAddr = none :=
    RawConnPool.remove_raddrs hg.1 hremove
  rcases RawConnPool.byRaddr_spec hpool .head (connTo "c1").peerAddr with ⟨_, _, hr, -⟩ | ⟨-, he⟩
  · rw [hentry] at hr
    cases hr
  · rw [hfound] at he
    cases he

end Sample

end XStack
