import XStack.Kad.Convergence
import Mathlib.Data.Finset.Card
import Mathlib.Data.Set.Finite.Basic
import Mathlib.Data.Prod.Lex

/-!
# The discipline of the recursive lookup

A lookup queries no peer twice, keeps at most `concurrency` queries outstanding and never waits for
an answer when none is outstanding.  It may hear of the same peers again and again, and the queue of
candidates may grow with every answer; but every query takes one of the peers that have not been
considered, and every answer one of the outstanding queries.  So as long as only finitely many peers
are named, the lookup ends.

## Main definitions

* `queries` : the peers that were queried.
* `RouteInv` : what holds at every point of a lookup.
* `RouteState.work` : what a lookup has still to do.

## Main results

* `RouteState.work_lt` : every step does some of the work.
* `lookup_disciplined` : the discipline.
-/

namespace XStack

/-- The peers that were passed to `RoutingAlogrithm::route`. -/
def queries (h : List RouteEvent) : List PeerId :=
  h.filterMap fun
    | .query peerId => some peerId
    | _ => none

/-- A lookup has heard of a peer: it is a seed, or an answer named it. -/
def Heard (seeds : List PeerId) (h : List RouteEvent) (peerId : PeerId) : Prop :=
  peerId ∈ seeds ∨ Named h peerId

theorem queries_concat (h : List RouteEvent) (event : RouteEvent) :
    queries (h ++ [event]) = queries h ++ queries [event] := List.filterMap_append ..

variable [Sha256] {s s' : RouteState} {event : RouteEvent} {peerId : PeerId}
  {result : Except Error Routing}

/-! ### One step -/

/-- **What happens between two loop tests.** -/
theorem RouteState.next_cases (hn : s.next = some (event, s')) :
    (∃ peerId candidates queried, s.pc = .outer ∧ s.ctx.candidates = peerId :: candidates ∧
      event = .skip peerId ∧ s.ctx.queried ⊆ queried ∧
      s' = ⟨{ s.ctx with candidates, queried }, s.unorderd, .inner⟩) ∨
    (∃ peerId candidates, s.pc = .outer ∧ s.ctx.candidates = peerId :: candidates ∧
      event = .query peerId ∧ peerId ∉ s.ctx.queried ∧
      s' = ⟨{ s.ctx with candidates, queried := insert peerId s.ctx.queried },
        s.unorderd ++ [peerId], .inner⟩) ∨
    (s.pc = .outer ∧ event = .done ∧ s' = { s with pc := .returned s.ctx.closestK }) ∨
    (s.pc = .inner ∧ s.waits = false ∧ event = .proceed ∧ s' = { s with pc := .outer }) ∨
    (s.pc = .inner ∧ s.waits = true ∧ s.unorderd = [] ∧ event = .starve) := by
  obtain ⟨ctx, unorderd, pc⟩ := s
  cases pc with
  | outer =>
    cases hc : ctx.candidates with
    | nil =>
      simp only [next, hc] at hn
      cases hn
      exact .inr (.inr (.inl ⟨rfl, rfl, rfl⟩))
    | cons peerId candidates =>
      simp only [next, hc] at hn
      split_ifs at hn with hqueried hfar
      · cases hn
        exact .inl ⟨peerId, candidates, ctx.queried, rfl, rfl, rfl, Finset.Subset.refl _, rfl⟩
      · cases hn
        exact .inl ⟨peerId, candidates, _, rfl, rfl, rfl, Finset.subset_insert .., rfl⟩
      · cases hn
        exact .inr (.inl ⟨peerId, candidates, rfl, rfl, rfl, hqueried, rfl⟩)
  | inner =>
    simp only [next] at hn
    split_ifs at hn with hwaits hempty
    · cases hn
      exact .inr (.inr (.inr (.inr ⟨rfl, hwaits, List.isEmpty_iff.1 hempty, rfl⟩)))
    · cases hn
      exact .inr (.inr (.inr (.inl ⟨rfl, Bool.not_eq_true _ ▸ hwaits, rfl, rfl⟩)))
  | returned R => cases hn
  | panicked panic => cases hn

/-- **What an answer changes.** -/
theorem RouteState.answer_cases (ha : s.answer peerId result = some s') :
    s.pc = .inner ∧ peerId ∈ s.unorderd ∧ s'.unorderd = s.unorderd.erase peerId ∧
      s'.ctx.queried = s.ctx.queried ∧ s'.ctx.concurrency = s.ctx.concurrency ∧
      (s'.pc = .inner ∨ ∃ R, s'.pc = .returned R) ∧
      ∀ q ∈ s'.ctx.candidates, q ∈ s.ctx.candidates ∨
        ∃ peers, result = .ok (.closest peers) ∧ q ∈ peers := by
  unfold answer at ha
  split_ifs at ha with hguard
  obtain ⟨hpc, -, hp⟩ := hguard
  rcases result with err | peers | _
  · cases ha
    exact ⟨hpc, hp, rfl, rfl, rfl, .inl rfl, fun q hq => .inl hq⟩
  · cases ha
    rw [Recursively.learn_eq, Recursively.addClosestK_eq]
    refine ⟨hpc, hp, rfl, rfl, rfl, .inl rfl, fun q hq => ?_⟩
    exact (List.mem_append.1 hq).imp_right fun hq => ⟨peers, rfl, (List.mem_filter.1 hq).1⟩
  · cases ha
    rw [Recursively.addClosestK_eq]
    exact ⟨hpc, hp, rfl, rfl, rfl, .inr ⟨_, rfl⟩, fun q hq => .inl hq⟩

/-! ### The invariant -/

/-- What holds at every point of a lookup. -/
structure RouteInv (concurrency : ℕ) (seeds : List PeerId) (h : List RouteEvent)
    (s : RouteState) : Prop where
  /-- The bound on the outstanding queries. -/
  concurrency_eq : s.ctx.concurrency = concurrency
  /-- No peer was queried twice. -/
  nodup : (queries h).Nodup
  /-- The queried peers have been considered. -/
  queried : ∀ peerId ∈ queries h, peerId ∈ s.ctx.queried
  /-- The number of outstanding queries is bounded. -/
  length_le : s.unorderd.length ≤ concurrency
  /-- At the test of the outer loop there is room for another one. -/
  room : s.pc = .outer → s.unorderd.length < concurrency
  /-- The lookup has not panicked. -/
  running : ∀ panic, s.pc ≠ .panicked panic
  /-- It has never waited for an answer when there was none to come. -/
  fed : .starve ∉ h
  /-- It has heard of the candidates. -/
  heard : ∀ peerId ∈ s.ctx.candidates, Heard seeds h peerId

variable {concurrency : ℕ} {seeds : List PeerId} {h : List RouteEvent}

omit [Sha256] in
theorem Heard.concat (hq : Heard seeds h peerId) (event : RouteEvent) :
    Heard seeds (h ++ [event]) peerId := by
  refine hq.imp_right ?_
  rintro ⟨source, peers, hmem, hp⟩
  exact ⟨source, peers, List.mem_append_left _ hmem, hp⟩

omit [Sha256] in
theorem RouteInv.idle (hI : RouteInv concurrency seeds h s) (hevent : queries [event] = [])
    (hfed : event ≠ .starve) (hconc : s'.ctx.concurrency = s.ctx.concurrency)
    (hqueried : s.ctx.queried ⊆ s'.ctx.queried)
    (hlen : s'.unorderd.length ≤ s.unorderd.length)
    (hroom : s'.pc = .outer → s'.unorderd.length < concurrency)
    (hrunning : ∀ panic, s'.pc ≠ .panicked panic)
    (hheard : ∀ peerId ∈ s'.ctx.candidates, Heard seeds (h ++ [event]) peerId) :
    RouteInv concurrency seeds (h ++ [event]) s' where
  concurrency_eq := hconc.trans hI.concurrency_eq
  nodup := by
    rw [queries_concat, hevent, List.append_nil]
    exact hI.nodup
  queried peerId hp := by
    rw [queries_concat, hevent, List.append_nil] at hp
    exact hqueried (hI.queried peerId hp)
  length_le := hlen.trans hI.length_le
  room := hroom
  running := hrunning
  fed hmem := (List.mem_append.1 hmem).elim hI.fed fun hmem =>
    hfed (List.mem_singleton.1 hmem).symm
  heard := hheard

omit [Sha256] in
theorem RouteInv.query (hI : RouteInv concurrency seeds h s) (hpc : s.pc = .outer)
    {candidates : List PeerId} (hc : s.ctx.candidates = peerId :: candidates)
    (hnew : peerId ∉ s.ctx.queried) :
    RouteInv concurrency seeds (h ++ [.query peerId])
      ⟨{ s.ctx with candidates, queried := insert peerId s.ctx.queried },
        s.unorderd ++ [peerId], .inner⟩ where
  concurrency_eq := hI.concurrency_eq
  nodup := by
    rw [queries_concat]
    exact List.concat_eq_append ▸ hI.nodup.concat fun hmem => hnew (hI.queried peerId hmem)
  queried q hq := by
    rw [queries_concat] at hq
    rcases List.mem_append.1 hq with hold | hq
    · exact Finset.mem_insert_of_mem (hI.queried q hold)
    · exact Finset.mem_insert.2 (.inl (List.mem_singleton.1 hq))
  length_le := by
    rw [List.length_append]
    exact hI.room hpc
  room := by simp
  running := by simp
  fed hmem := (List.mem_append.1 hmem).elim hI.fed fun hmem => by
    cases List.mem_singleton.1 hmem
  heard q hq := (hI.heard q (hc ▸ List.mem_cons_of_mem _ hq)).concat _

theorem RouteInv.next (hpos : 0 < concurrency) (hI : RouteInv concurrency seeds h s)
    (hn : s.next = some (event, s')) : RouteInv concurrency seeds (h ++ [event]) s' := by
  rcases RouteState.next_cases hn with
    ⟨peerId, candidates, queried, hpc, hc, rfl, hsub, rfl⟩ |
    ⟨peerId, candidates, hpc, hc, rfl, hnew, rfl⟩ | ⟨hpc, rfl, rfl⟩ |
    ⟨hpc, hwaits, rfl, rfl⟩ | ⟨hpc, hwaits, hempty, rfl⟩
  · exact hI.idle rfl (by simp) rfl hsub le_rfl (by simp) (by simp) fun q hq =>
      (hI.heard q (hc ▸ List.mem_cons_of_mem _ hq)).concat _
  · exact hI.query hpc hc hnew
  · exact hI.idle rfl (by simp) rfl (Finset.Subset.refl _) le_rfl (by simp) (by simp) fun q hq =>
      (hI.heard q hq).concat _
  · -- the inner loop ends with room for another query
    have hne : s.unorderd.length ≠ concurrency := by
      intro heq
      rw [RouteState.waits, hI.concurrency_eq, heq] at hwaits
      simp at hwaits
    exact hI.idle rfl (by simp) rfl (Finset.Subset.refl _) le_rfl
      (fun _ => Nat.lt_of_le_of_ne hI.length_le hne) (by simp) fun q hq =>
        (hI.heard q hq).concat _
  · -- it waits only for outstanding queries
    rw [RouteState.waits, hempty, hI.concurrency_eq] at hwaits
    simp only [List.isEmpty_nil, Bool.not_true, Bool.and_false, List.length_nil, Bool.false_or,
      beq_iff_eq] at hwaits
    exact absurd hwaits hpos.ne

theorem RouteInv.answer (hI : RouteInv concurrency seeds h s)
    (ha : s.answer peerId result = some s') :
    RouteInv concurrency seeds (h ++ [.answered peerId result]) s' := by
  obtain ⟨hpc, hp, hun, hqueried, hconc, hpc', hcand⟩ := RouteState.answer_cases ha
  refine hI.idle rfl (by simp) hconc (by rw [hqueried]) ?_ ?_ ?_ fun q hq => ?_
  · rw [hun]
    exact List.length_erase_le ..
  · intro houter
    rcases hpc' with hpc' | ⟨R, hpc'⟩ <;> rw [hpc'] at houter <;> cases houter
  · intro panic hpanic
    rcases hpc' with hpc' | ⟨R, hpc'⟩ <;> rw [hpc'] at hpanic <;> cases hpanic
  · rcases hcand q hq with hold | ⟨peers, rfl, hq⟩
    · exact (hI.heard q hold).concat _
    · exact .inr ⟨peerId, peers, List.mem_concat_self, hq⟩

theorem routeLts_disciplined {key : KBucketKey} {constK concurrency : ℕ+}
    (hr : (routeLts key constK concurrency seeds).Run h s) :
    RouteInv concurrency seeds h s := by
  refine hr.invariant (I := RouteInv concurrency seeds) ?_ ?_
  · rintro s rfl
    exact {
      concurrency_eq := rfl
      nodup := List.nodup_nil
      queried := by simp [queries]
      length_le := Nat.zero_le _
      room := fun _ => concurrency.2
      running := by simp
      fed := List.not_mem_nil
      heard := fun q hq => .inl hq }
  · rintro h s event s' - hI (hn | ⟨peerId, result, rfl, ha⟩)
    · exact hI.next concurrency.2 hn
    · exact hI.answer ha

/-! ### The end of a lookup -/

/-- The number of turns until the next candidate is considered. -/
def RoutePc.turns : RoutePc → ℕ
  | .inner => 2
  | .outer => 1
  | _ => 0

/-- What a lookup has still to do, if all peers that it will ever hear of are among `known`: first
the peers to query and the answers to come, then the candidates. -/
def RouteState.work (known : Finset PeerId) (s : RouteState) : ℕ ×ₗ ℕ :=
  toLex (2 * (known \ s.ctx.queried).card + s.unorderd.length,
    2 * s.ctx.candidates.length + s.pc.turns)

/-- **Every step does some of the work.** -/
theorem RouteState.work_lt {key : KBucketKey} {constK concurrency : ℕ+} {known : Finset PeerId}
    (hknown : ∀ peerId ∈ s.ctx.candidates, peerId ∈ known) (hevent : event ≠ .starve)
    (hst : (routeLts key constK concurrency seeds).step s event s') :
    s'.work known < s.work known := by
  rw [work, work, Prod.Lex.toLex_lt_toLex']
  rcases hst with hn | ⟨peerId, result, rfl, ha⟩
  · rcases RouteState.next_cases hn with
      ⟨peerId, candidates, queried, hpc, hc, -, hsub, rfl⟩ |
      ⟨peerId, candidates, hpc, hc, -, hnew, rfl⟩ | ⟨hpc, -, rfl⟩ | ⟨hpc, -, -, rfl⟩ |
      ⟨-, -, -, rfl⟩
    · -- a candidate is dropped
      have hcard : (known \ queried).card ≤ (known \ s.ctx.queried).card :=
        Finset.card_le_card (Finset.sdiff_subset_sdiff (Finset.Subset.refl _) hsub)
      simp only [hpc, hc, RoutePc.turns, List.length_cons]
      omega
    · -- one peer fewer is left to query
      have hmem : peerId ∈ known \ s.ctx.queried :=
        Finset.mem_sdiff.2 ⟨hknown peerId (hc ▸ List.mem_cons_self), hnew⟩
      have hcard : (known \ insert peerId s.ctx.queried).card < (known \ s.ctx.queried).card := by
        rw [Finset.sdiff_insert]
        exact Finset.card_erase_lt_of_mem hmem
      simp only [List.length_append, List.length_singleton]
      omega
    · simp only [hpc, RoutePc.turns]
      omega
    · simp only [hpc, RoutePc.turns]
      omega
    · exact absurd rfl hevent
  · -- one answer fewer is to come
    obtain ⟨-, hp, hun, hqueried, -⟩ := RouteState.answer_cases ha
    have hlen : s'.unorderd.length < s.unorderd.length := by
      rw [hun, List.length_erase_of_mem hp]
      exact Nat.pred_lt (Nat.ne_of_gt (List.length_pos_of_mem hp))
    rw [hqueried]
    dsimp only
    omega

/-- The lookup has returned, or goes on, or waits for an answer, and goes on with any. -/
def RouteState.Proceeds (s : RouteState) : Prop :=
  (∃ R, s.pc = .returned R) ∨ (∃ event s', s.next = some (event, s')) ∨
    s.unorderd ≠ [] ∧ ∀ peerId ∈ s.unorderd, ∀ result, ∃ s', s.answer peerId result = some s'

theorem RouteState.proceeds (hrunning : ∀ panic, s.pc ≠ .panicked panic) : s.Proceeds := by
  obtain ⟨ctx, unorderd, pc⟩ := s
  cases pc with
  | outer =>
    refine .inr (.inl ?_)
    unfold next
    cases ctx.candidates with
    | nil => exact ⟨_, _, rfl⟩
    | cons peerId candidates =>
      simp only
      split_ifs <;> exact ⟨_, _, rfl⟩
  | inner =>
    by_cases hwaits : RouteState.waits ⟨ctx, unorderd, .inner⟩ = true
    · by_cases hempty : unorderd = []
      · subst hempty
        exact .inr (.inl ⟨_, _, by simp only [next, hwaits]; rfl⟩)
      · refine .inr (.inr ⟨hempty, fun peerId hp result => ?_⟩)
        unfold answer
        rw [if_pos ⟨rfl, hwaits, hp⟩]
        rcases result with err | _ | _ <;> exact ⟨_, rfl⟩
    · exact .inr (.inl ⟨_, _, by simp only [next, hwaits]; rfl⟩)
  | returned R => exact .inl ⟨R, rfl⟩
  | panicked panic => exact absurd rfl (hrunning panic)

/-- **The discipline of the lookup.**  Whatever the peers answer and in whatever order: no peer is
queried twice, at most `concurrency` queries are outstanding, the lookup never waits in vain, and
nothing is outstanding when it returns unless it was told to stop.  And it does return, if only
finitely many peers are ever named: it can always go on, with any answer that it waits for, but
there is no infinite run. -/
theorem lookup_disciplined (key : KBucketKey) (constK concurrency : ℕ+) (seeds : List PeerId) :
    (∀ h s, (routeLts key constK concurrency seeds).Run h s →
      (queries h).Nodup ∧ s.unorderd.length ≤ concurrency ∧ .starve ∉ h ∧ s.Proceeds ∧
      ∀ R, s.pc = .returned R → s.unorderd = [] ∨ Finished h) ∧
    ¬ ∃ f e, (routeLts key constK concurrency seeds).Infinite f e ∧
      {peerId | ∃ n, Heard seeds ((List.range n).map e) peerId}.Finite := by
  constructor
  · intro h s hr
    have hI := routeLts_disciplined hr
    refine ⟨hI.nodup, hI.length_le, hI.fed, RouteState.proceeds hI.running, fun R hret => ?_⟩
    have hquiet := (routeLts_inv hr).2
    rw [RouteState.Quiet, hret] at hquiet
    exact hquiet.symm.imp_left fun hdone => hdone.2.2
  · rintro ⟨f, e, hinf, hfinite⟩
    refine hinf.absurd (RouteState.work hfinite.toFinset) fun n => ?_
    have hI := routeLts_disciplined (hinf.run n)
    have hI' := routeLts_disciplined (hinf.run (n + 1))
    refine RouteState.work_lt (fun peerId hp => hfinite.mem_toFinset.2 ⟨n, hI.heard peerId hp⟩) ?_
      (hinf.step n)
    -- a lookup that waits in vain contradicts the invariant of the run up to there
    intro hstarve
    refine hI'.fed ?_
    rw [← hstarve, List.range_succ, List.map_append]
    exact List.mem_concat_self

end XStack
