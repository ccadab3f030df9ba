import XStack.Data.Best
import XStack.Kad.Lookup
import XStack.Kad.Nodes

/-!
# The convergence of the recursive lookup

What a lookup returns when no peer tells it to stop: the closest peers that answered, among all the
peers it ever heard of.  The threshold below which a candidate is considered moves while queries are
outstanding, and candidates are dropped both when they are named and when their turn comes; it only
ever moves towards the key, so what was dropped once would be dropped again (`Beaten.concat`).

The invariant says where every peer is that the lookup has heard of: it is a candidate, or it is
settled, which means that its query is outstanding or has failed, or it is among the closest, or it
is beaten by them.

## Main definitions

* `Converged` : what is guaranteed of the returned peers.
* `Settled`, `LookupInv` : the invariant.

## Main results

* `Recursively.addClosestK_eq`, `isCloser_eq_false_iff`, `learn_eq` : what the functions compute.
* `lookup_converges` : every lookup that returns without being told to stop has converged.
-/

namespace XStack

/-! ### Histories -/

/-- The query of a peer succeeded. -/
def Succeeded (h : List RouteEvent) (peerId : PeerId) : Prop :=
  ∃ peers, .answered peerId (.ok (.closest peers)) ∈ h

/-- The query of a peer failed. -/
def Failed (h : List RouteEvent) (peerId : PeerId) : Prop :=
  ∃ err, .answered peerId (.error err) ∈ h

/-- A peer was named in a successful answer. -/
def Named (h : List RouteEvent) (peerId : PeerId) : Prop :=
  ∃ source peers, .answered source (.ok (.closest peers)) ∈ h ∧ peerId ∈ peers

/-- Some peer told the lookup to stop. -/
def Finished (h : List RouteEvent) : Prop := ∃ source, .answered source (.ok .finished) ∈ h

section History

variable {h h' : List RouteEvent} {peerId q : PeerId}

theorem Succeeded.mono (hs : Succeeded h q) (hsub : h ⊆ h') : Succeeded h' q := by
  obtain ⟨peers, hmem⟩ := hs
  exact ⟨peers, hsub hmem⟩

theorem Failed.mono (hf : Failed h q) (hsub : h ⊆ h') : Failed h' q := by
  obtain ⟨err, hmem⟩ := hf
  exact ⟨err, hsub hmem⟩

theorem Finished.mono (hf : Finished h) (hsub : h ⊆ h') : Finished h' := by
  obtain ⟨source, hmem⟩ := hf
  exact ⟨source, hsub hmem⟩

theorem Named.of_concat {event : RouteEvent} (hn : Named (h ++ [event]) q)
    (he : ∀ source peers, event ≠ .answered source (.ok (.closest peers))) : Named h q := by
  obtain ⟨source, peers, hmem, hq⟩ := hn
  rcases List.mem_append.1 hmem with hold | hnew
  · exact ⟨source, peers, hold, hq⟩
  · exact absurd (List.mem_singleton.1 hnew).symm (he source peers)

theorem Named.concat_answer {peers : List PeerId}
    (hn : Named (h ++ [.answered peerId (.ok (.closest peers))]) q) : Named h q ∨ q ∈ peers := by
  obtain ⟨source, peers', hmem, hq⟩ := hn
  rcases List.mem_append.1 hmem with hold | hnew
  · exact .inl ⟨source, peers', hold, hq⟩
  · cases List.mem_singleton.1 hnew
    exact .inr hq

end History

section

variable [Sha256]

/-- What is guaranteed of the peers `R` that a lookup with the history `h` returned. -/
structure Converged (key : KBucketKey) (constK : ℕ) (seeds : List PeerId) (h : List RouteEvent)
    (R : List PeerId) : Prop where
  /-- They are sorted by ascending distance. -/
  sorted : R.Pairwise fun p q => key.peerDistance p ≤ key.peerDistance q
  /-- There are at most `constK` of them. -/
  length_le : R.length ≤ constK
  /-- There are no duplicates. -/
  nodup : R.Nodup
  /-- Their queries succeeded. -/
  succeeded : ∀ peerId ∈ R, Succeeded h peerId
  /-- A seed or named peer is among them, or its query failed, or it is not closer than any. -/
  complete : ∀ peerId, peerId ∈ seeds ∨ Named h peerId → peerId ∈ R ∨ Failed h peerId ∨
    (R.length = constK ∧
      ∃ last, R.getLast? = some last ∧ key.peerDistance last ≤ key.peerDistance peerId)

/-! ### The functions of the context -/

namespace Recursively

variable (ctx : Recursively)

theorem addClosestK_eq (peerId : PeerId) : ctx.addClosestK peerId =
    { ctx with closestK := best ctx.key.peerDistance ctx.constK (ctx.closestK ++ [peerId]) } := by
  unfold addClosestK best
  simp only
  split_ifs with hlen
  · rfl
  · rw [List.take_of_length_le (Nat.not_lt.1 hlen)]

theorem learn_eq (peers : List PeerId) : ctx.learn peers =
    { ctx with candidates := ctx.candidates ++
        peers.filter fun peerId => peerId ∉ ctx.queried ∧ ctx.isCloser peerId } := by
  induction peers generalizing ctx with
  | nil => simp [learn]
  | cons peerId peers ih =>
    unfold learn
    split_ifs with hq hc
    · rw [ih, List.filter_cons_of_neg (by simp [hq])]
    · rw [ih, List.filter_cons_of_neg (by simpa using fun _ => hc)]
    · rw [ih, List.filter_cons_of_pos (by simpa [hq] using hc)]
      simp only [List.append_assoc, List.singleton_append]
      rfl

theorem isCloser_eq_false_iff (hk : 0 < ctx.constK) (hlen : ctx.closestK.length ≤ ctx.constK)
    (hsorted : ctx.closestK.Pairwise fun p q => ctx.key.peerDistance p ≤ ctx.key.peerDistance q)
    {peerId : PeerId} : ctx.isCloser peerId = false ↔
      Beaten ctx.key.peerDistance ctx.constK ctx.closestK peerId := by
  rw [beaten_iff_getLast? _ hk hsorted]
  unfold isCloser
  split_ifs with hlt
  · simp only [false_iff, not_and]
    omega
  · have hfull : ctx.closestK.length = ctx.constK := by omega
    cases hlast : ctx.closestK.getLast? with
    | none =>
      rw [List.getLast?_eq_none_iff] at hlast
      simp [hlast] at hfull
      omega
    | some last =>
      simp only [decide_eq_false_iff_not, not_lt, hfull, Option.some.injEq, true_and,
        exists_eq_left']

end Recursively

/-! ### The invariant -/

/-- The lookup is through with a peer, or waits for its answer. -/
def Settled (h : List RouteEvent) (ctx : Recursively) (unorderd : List PeerId)
    (peerId : PeerId) : Prop :=
  peerId ∈ unorderd ∨ peerId ∈ ctx.closestK ∨ Failed h peerId ∨
    Beaten ctx.key.peerDistance ctx.constK ctx.closestK peerId

/-- What holds at every point of a lookup of `key`, of its context and outstanding queries. -/
structure LookupInv (key : KBucketKey) (constK : ℕ) (seeds : List PeerId) (h : List RouteEvent)
    (ctx : Recursively) (unorderd : List PeerId) : Prop where
  key_eq : ctx.key = key
  constK_eq : ctx.constK = constK
  sorted : ctx.closestK.Pairwise fun p q => ctx.key.peerDistance p ≤ ctx.key.peerDistance q
  length_le : ctx.closestK.length ≤ ctx.constK
  nodup : ctx.closestK.Nodup
  unorderd_nodup : unorderd.Nodup
  unorderd_queried : ∀ peerId ∈ unorderd, peerId ∈ ctx.queried
  closestK_queried : ∀ peerId ∈ ctx.closestK, peerId ∈ ctx.queried
  disjoint : ∀ peerId ∈ unorderd, peerId ∉ ctx.closestK
  answered : ∀ peerId ∈ ctx.closestK, Succeeded h peerId ∨ Finished h
  settled : ∀ peerId ∈ ctx.queried, Settled h ctx unorderd peerId
  covered : ∀ peerId, peerId ∈ seeds ∨ Named h peerId →
    peerId ∈ ctx.candidates ∨ Settled h ctx unorderd peerId

variable {key : KBucketKey} {constK : ℕ} {seeds : List PeerId} {h h' : List RouteEvent}
  {ctx : Recursively} {unorderd unorderd' : List PeerId} {peerId q : PeerId}

theorem Settled.mono (hs : Settled h ctx unorderd q) (hsub : h ⊆ h')
    (hun : unorderd ⊆ unorderd') : Settled h' ctx unorderd' q := by
  rcases hs with hq | hq | hq | hq
  · exact .inl (hun hq)
  · exact .inr (.inl hq)
  · exact .inr (.inr (.inl (hq.mono hsub)))
  · exact .inr (.inr (.inr hq))

namespace LookupInv

theorem new (key : KBucketKey) (constK concurrency : ℕ+) (seeds : List PeerId) :
    LookupInv key constK seeds [] (.new key constK concurrency seeds) [] where
  key_eq := rfl
  constK_eq := rfl
  sorted := .nil
  length_le := Nat.zero_le _
  nodup := List.nodup_nil
  unorderd_nodup := List.nodup_nil
  unorderd_queried := by simp
  closestK_queried := by simp [Recursively.new]
  disjoint := by simp
  answered := by simp [Recursively.new]
  settled := by simp [Recursively.new]
  covered q hq := by
    rcases hq with hseed | ⟨source, peers, hmem, -⟩
    · exact .inl hseed
    · cases hmem

variable (hI : LookupInv key constK seeds h ctx unorderd)

include hI

theorem idle {event : RouteEvent} (he : ∀ source result, event ≠ .answered source result) :
    LookupInv key constK seeds (h ++ [event]) ctx unorderd :=
  have hsub : h ⊆ h ++ [event] := List.subset_append_left ..
  { hI with
    answered := fun q hq => (hI.answered q hq).imp (·.mono hsub) (·.mono hsub)
    settled := fun q hq => (hI.settled q hq).mono hsub (List.Subset.refl _)
    covered := fun q hq => by
      have hold := hI.covered q (hq.imp_right (·.of_concat fun source peers => he source _))
      exact hold.imp_right (·.mono hsub (List.Subset.refl _)) }

/-- The turn of the next candidate, which is settled after it. -/
theorem visit (event : RouteEvent) (he : ∀ source result, event ≠ .answered source result)
    {candidates : List PeerId} (hc : ctx.candidates = peerId :: candidates)
    (hsub : unorderd ⊆ unorderd') (hnodup : unorderd'.Nodup)
    (hqueried : ∀ q ∈ unorderd', q ∈ insert peerId ctx.queried)
    (hdisj : ∀ q ∈ unorderd', q ∉ ctx.closestK)
    (hsettled : Settled h ctx unorderd' peerId) :
    LookupInv key constK seeds (h ++ [event])
      { ctx with candidates, queried := insert peerId ctx.queried } unorderd' := by
  have hI' := hI.idle he
  have hold : ∀ q, Settled (h ++ [event]) ctx unorderd q → Settled (h ++ [event]) ctx unorderd' q :=
    fun q hq => hq.mono (List.Subset.refl _) hsub
  have hnow : Settled (h ++ [event]) ctx unorderd' peerId :=
    hsettled.mono (List.subset_append_left ..) (List.Subset.refl _)
  refine { hI' with
    unorderd_nodup := hnodup
    unorderd_queried := hqueried
    closestK_queried := fun q hq => Finset.mem_insert_of_mem (hI.closestK_queried q hq)
    disjoint := hdisj
    settled := fun q hq => ?_
    covered := fun q hq => ?_ }
  · rcases Finset.mem_insert.1 hq with rfl | hq
    · exact hnow
    · exact hold q (hI'.settled q hq)
  · rcases hI'.covered q hq with hcand | hq
    · rw [hc] at hcand
      rcases List.mem_cons.1 hcand with rfl | hcand
      · exact .inr hnow
      · exact .inl hcand
    · exact .inr (hold q hq)

theorem skip_queried {candidates : List PeerId} (hc : ctx.candidates = peerId :: candidates)
    (hq : peerId ∈ ctx.queried) :
    LookupInv key constK seeds (h ++ [.skip peerId]) { ctx with candidates } unorderd := by
  have hvisit := hI.visit (.skip peerId) (by simp) hc (List.Subset.refl _)
    hI.unorderd_nodup (fun q hq => Finset.mem_insert_of_mem (hI.unorderd_queried q hq)) hI.disjoint
    (hI.settled peerId hq)
  rwa [Finset.insert_eq_of_mem hq] at hvisit

theorem skip_beaten {candidates : List PeerId} (hc : ctx.candidates = peerId :: candidates)
    (hb : Beaten ctx.key.peerDistance ctx.constK ctx.closestK peerId) :
    LookupInv key constK seeds (h ++ [.skip peerId])
      { ctx with candidates, queried := insert peerId ctx.queried } unorderd :=
  hI.visit _ (by simp) hc (List.Subset.refl _) hI.unorderd_nodup
    (fun q hq => Finset.mem_insert_of_mem (hI.unorderd_queried q hq)) hI.disjoint
    (.inr (.inr (.inr hb)))

theorem query {candidates : List PeerId} (hc : ctx.candidates = peerId :: candidates)
    (hq : peerId ∉ ctx.queried) :
    LookupInv key constK seeds (h ++ [.query peerId])
      { ctx with candidates, queried := insert peerId ctx.queried } (unorderd ++ [peerId]) := by
  have hnew : peerId ∉ unorderd := fun hmem => hq (hI.unorderd_queried peerId hmem)
  refine hI.visit _ (by simp) hc (List.subset_append_left ..) ?_ ?_ ?_
    (.inl (List.mem_append_right _ (List.mem_singleton_self _)))
  · exact List.concat_eq_append ▸ hI.unorderd_nodup.concat hnew
  · intro q hmem
    rcases List.mem_append.1 hmem with hold | hmem
    · exact Finset.mem_insert_of_mem (hI.unorderd_queried q hold)
    · exact Finset.mem_insert.2 (.inl (List.mem_singleton.1 hmem))
  · intro q hmem
    rcases List.mem_append.1 hmem with hold | hmem
    · exact hI.disjoint q hold
    · rw [List.mem_singleton.1 hmem]
      exact fun hclose => hq (hI.closestK_queried peerId hclose)

/-- A peer that has answered is collected, and the answer may have named new candidates. -/
theorem collect {event : RouteEvent} (hp : peerId ∈ unorderd)
    (hans : Succeeded (h ++ [event]) peerId ∨ Finished (h ++ [event])) {candidates : List PeerId}
    (hcov : ∀ q, q ∈ seeds ∨ Named (h ++ [event]) q →
      q ∈ candidates ∨ Settled h ctx unorderd q) :
    LookupInv key constK seeds (h ++ [event]) ({ ctx with candidates }.addClosestK peerId)
      (unorderd.erase peerId) := by
  have hsub : h ⊆ h ++ [event] := List.subset_append_left ..
  have hnew := hI.disjoint peerId hp
  rw [Recursively.addClosestK_eq]
  have hmem : ∀ q ∈ best ctx.key.peerDistance ctx.constK (ctx.closestK ++ [peerId]),
      q ∈ ctx.closestK ∨ q = peerId := by
    intro q hq
    exact (List.mem_append.1 (mem_of_mem_best _ hq)).imp_right List.mem_singleton.1
  have hsettled : ∀ q, Settled h ctx unorderd q → Settled (h ++ [event])
      { ctx with
        candidates
        closestK := best ctx.key.peerDistance ctx.constK (ctx.closestK ++ [peerId]) }
      (unorderd.erase peerId) q := by
    -- a collected peer stays, or is beaten by as many closer ones as are kept
    have hin : ∀ q ∈ ctx.closestK ++ [peerId], Settled (h ++ [event])
        { ctx with
          candidates
          closestK := best ctx.key.peerDistance ctx.constK (ctx.closestK ++ [peerId]) }
        (unorderd.erase peerId) q := by
      intro q hq
      rcases mem_best_or_beaten ctx.key.peerDistance ctx.constK hq with hbest | hbeaten
      · exact .inr (.inl hbest)
      · exact .inr (.inr (.inr hbeaten))
    rintro q (hq | hq | hq | hq)
    · rcases eq_or_ne q peerId with rfl | hne
      · exact hin q (List.mem_append_right _ (List.mem_singleton_self _))
      · exact .inl ((List.mem_erase_of_ne hne).2 hq)
    · exact hin q (List.mem_append_left _ hq)
    · exact .inr (.inr (.inl (hq.mono hsub)))
    · exact .inr (.inr (.inr (hq.concat _ peerId)))
  exact {
    key_eq := hI.key_eq
    constK_eq := hI.constK_eq
    sorted := pairwise_best ..
    length_le := length_best_le ..
    nodup := nodup_best _ (List.concat_eq_append ▸ hI.nodup.concat hnew)
    unorderd_nodup := hI.unorderd_nodup.erase _
    unorderd_queried := fun q hq => hI.unorderd_queried q (List.mem_of_mem_erase hq)
    closestK_queried := fun q hq => by
      rcases hmem q hq with hold | rfl
      · exact hI.closestK_queried q hold
      · exact hI.unorderd_queried q hp
    disjoint := fun q hq hbest => by
      obtain ⟨hne, hq⟩ := (hI.unorderd_nodup.mem_erase_iff).1 hq
      exact (hmem q hbest).elim (hI.disjoint q hq) hne
    answered := fun q hq => by
      rcases hmem q hq with hold | rfl
      · exact (hI.answered q hold).imp (·.mono hsub) (·.mono hsub)
      · exact hans
    settled := fun q hq => hsettled q (hI.settled q hq)
    covered := fun q hq => (hcov q hq).imp_right (hsettled q) }

theorem answer_closest (hk : 0 < constK) (hp : peerId ∈ unorderd) (peers : List PeerId) :
    LookupInv key constK seeds (h ++ [.answered peerId (.ok (.closest peers))])
      ((ctx.learn peers).addClosestK peerId) (unorderd.erase peerId) := by
  rw [Recursively.learn_eq]
  refine hI.collect hp (.inl ⟨peers, List.mem_concat_self⟩) ?_
  intro q hq
  rcases hq with hseed | hnamed
  · exact (hI.covered q (.inl hseed)).imp_left (List.mem_append_left _)
  · rcases hnamed.concat_answer with hnamed | hpeers
    · exact (hI.covered q (.inr hnamed)).imp_left (List.mem_append_left _)
    · by_cases hq : q ∈ ctx.queried
      · exact .inr (hI.settled q hq)
      · cases hc : ctx.isCloser q with
        | true =>
          exact .inl (List.mem_append_right _ (List.mem_filter.2 ⟨hpeers, by simp [hq, hc]⟩))
        | false =>
          refine .inr (.inr (.inr (.inr ?_)))
          exact (ctx.isCloser_eq_false_iff (hI.constK_eq ▸ hk) hI.length_le hI.sorted).1 hc

theorem answer_finished (hp : peerId ∈ unorderd) :
    LookupInv key constK seeds (h ++ [.answered peerId (.ok .finished)])
      (ctx.addClosestK peerId) (unorderd.erase peerId) := by
  refine hI.collect hp (.inr ⟨peerId, List.mem_concat_self⟩) ?_
  intro q hq
  exact hI.covered q (hq.imp_right (·.of_concat (by simp)))

theorem answer_error (hp : peerId ∈ unorderd) (err : Error) :
    LookupInv key constK seeds (h ++ [.answered peerId (.error err)]) ctx
      (unorderd.erase peerId) := by
  have hsub : h ⊆ h ++ [.answered peerId (.error err)] := List.subset_append_left ..
  have hsettled : ∀ q, Settled h ctx unorderd q →
      Settled (h ++ [.answered peerId (.error err)]) ctx (unorderd.erase peerId) q := by
    rintro q (hq | hq | hq | hq)
    · rcases eq_or_ne q peerId with rfl | hne
      · exact .inr (.inr (.inl ⟨err, List.mem_concat_self⟩))
      · exact .inl ((List.mem_erase_of_ne hne).2 hq)
    · exact .inr (.inl hq)
    · exact .inr (.inr (.inl (hq.mono hsub)))
    · exact .inr (.inr (.inr hq))
  exact { hI with
    unorderd_nodup := hI.unorderd_nodup.erase _
    unorderd_queried := fun q hq => hI.unorderd_queried q (List.mem_of_mem_erase hq)
    disjoint := fun q hq => hI.disjoint q (List.mem_of_mem_erase hq)
    answered := fun q hq => (hI.answered q hq).imp (·.mono hsub) (·.mono hsub)
    settled := fun q hq => hsettled q (hI.settled q hq)
    covered := fun q hq =>
      (hI.covered q (hq.imp_right (·.of_concat (by simp)))).imp_right (hsettled q) }

end LookupInv

/-! ### Runs -/

/-- What holds of the outstanding queries at the points of the code. -/
def RouteState.Quiet (h : List RouteEvent) (s : RouteState) : Prop :=
  match s.pc with
  | .outer => s.ctx.candidates = [] → s.unorderd = []
  | .returned R => Finished h ∨ (R = s.ctx.closestK ∧ s.ctx.candidates = [] ∧ s.unorderd = [])
  | _ => True

theorem RouteState.next_inv (hk : 0 < constK) {s s' : RouteState} {event : RouteEvent}
    (hI : LookupInv key constK seeds h s.ctx s.unorderd) (hq : s.Quiet h)
    (hn : s.next = some (event, s')) :
    LookupInv key constK seeds (h ++ [event]) s'.ctx s'.unorderd ∧ s'.Quiet (h ++ [event]) := by
  obtain ⟨ctx, unorderd, pc⟩ := s
  cases pc with
  | outer =>
    cases hc : ctx.candidates with
    | nil =>
      simp only [next, hc] at hn
      cases hn
      exact ⟨hI.idle (by simp), .inr ⟨rfl, hc, hq hc⟩⟩
    | cons peerId candidates =>
      simp only [next, hc] at hn
      split_ifs at hn with hqueried hfar
      · cases hn
        exact ⟨hI.skip_queried hc hqueried, trivial⟩
      · cases hn
        refine ⟨hI.skip_beaten hc ?_, trivial⟩
        rw [Bool.not_eq_true'] at hfar
        exact (ctx.isCloser_eq_false_iff (hI.constK_eq ▸ hk) hI.length_le hI.sorted).1 hfar
      · cases hn
        exact ⟨hI.query hc hqueried, trivial⟩
  | inner =>
    simp only [next] at hn
    split_ifs at hn with hwaits hempty
    · cases hn
      exact ⟨hI.idle (by simp), trivial⟩
    · cases hn
      refine ⟨hI.idle (by simp), ?_⟩
      intro hc
      -- the inner loop does not end while the only hope is an answer
      by_contra hne
      refine hwaits ?_
      simp only at hc hne
      simp [waits, hc, hne]
  | returned R => cases hn
  | panicked panic => cases hn

theorem RouteState.answer_inv (hk : 0 < constK) {s s' : RouteState}
    {result : Except Error Routing} (hI : LookupInv key constK seeds h s.ctx s.unorderd)
    (ha : s.answer peerId result = some s') :
    LookupInv key constK seeds (h ++ [.answered peerId result]) s'.ctx s'.unorderd ∧
      s'.Quiet (h ++ [.answered peerId result]) := by
  unfold answer at ha
  split_ifs at ha with hguard
  obtain ⟨-, -, hp⟩ := hguard
  rcases result with err | _ | _
  · cases ha
    exact ⟨hI.answer_error hp err, trivial⟩
  · cases ha
    exact ⟨hI.answer_closest hk hp _, trivial⟩
  · cases ha
    exact ⟨hI.answer_finished hp, .inl ⟨peerId, List.mem_concat_self⟩⟩

theorem routeLts_inv {constK concurrency : ℕ+} {s : RouteState}
    (hr : (routeLts key constK concurrency seeds).Run h s) :
    LookupInv key constK seeds h s.ctx s.unorderd ∧ s.Quiet h := by
  refine hr.invariant (I := fun h s => LookupInv key constK seeds h s.ctx s.unorderd ∧ s.Quiet h)
    ?_ ?_
  · rintro s rfl
    exact ⟨.new key constK concurrency seeds, fun _ => rfl⟩
  · rintro h s event s' - ⟨hI, hq⟩ (hn | ⟨peerId, result, rfl, ha⟩)
    · exact RouteState.next_inv constK.2 hI hq hn
    · exact RouteState.answer_inv constK.2 hI ha

/-- **The convergence of the lookup.**  Whatever the queried peers answer and in whatever order, a
lookup that returns without having been told to stop returns the closest of the peers that
answered, among all it has heard of. -/
theorem lookup_converges {constK concurrency : ℕ+} {s : RouteState} {R : List PeerId}
    (hr : (routeLts key constK concurrency seeds).Run h s) (hret : s.pc = .returned R)
    (hfin : ¬ Finished h) : Converged key constK seeds h R := by
  obtain ⟨hI, hq⟩ := routeLts_inv hr
  rw [RouteState.Quiet, hret] at hq
  obtain ⟨rfl, hcand, hun⟩ := hq.resolve_left hfin
  have hsorted := hI.sorted
  have hlen := hI.length_le
  rw [hI.key_eq] at hsorted
  rw [hI.constK_eq] at hlen
  refine ⟨hsorted, hlen, hI.nodup, fun q hq => (hI.answered q hq).resolve_right hfin,
    fun q hq => ?_⟩
  rcases hI.covered q hq with hc | hq | hq | hq | hq
  · rw [hcand] at hc
    cases hc
  · rw [hun] at hq
    cases hq
  · exact .inl hq
  · exact .inr (.inl hq)
  · rw [hI.key_eq, hI.constK_eq] at hq
    exact .inr (.inr ((beaten_iff_getLast? _ constK.2 hsorted).1 hq))

end

section Sample

attribute [local instance] Sha256.ofNodes

/-- A lookup that starts with node 2 and hears of node 3, which cannot be reached. -/
theorem lookup_converges_node2 :
    Converged (.ofPeerId (node 0)) 2 [node 2]
      [.query (node 2), .answered (node 2) (.ok (.closest [node 3])), .proceed, .query (node 3),
        .answered (node 3) (.error .timeout), .proceed, .done] [node 2] := by
  have start : (routeLts (.ofPeerId (node 0)) ⟨2, by decide⟩ ⟨1, by decide⟩ [node 2]).Run [] _ :=
    .start rfl
  have query2 := start.snoc (.inl rfl)
  have answer2 := query2.snoc (.inr ⟨node 2, .ok (.closest [node 3]), rfl, rfl⟩)
  have query3 := (answer2.snoc (.inl rfl)).snoc (.inl rfl)
  have answer3 := query3.snoc (.inr ⟨node 3, .error .timeout, rfl, rfl⟩)
  have done := (answer3.snoc (.inl rfl)).snoc (.inl rfl)
  exact lookup_converges done rfl (by simp [Finished])

end Sample

end XStack
