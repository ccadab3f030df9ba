import XStack.Kad.Closest
import XStack.Kad.Lookup
import XStack.Kad.Metric

/-!
# Are the peers close to a key the closest ones?

`closest` is documented to return the closest peers.  It does not, for two reasons.  The buckets
below and above the bucket of the key are visited in turn, but all buckets below it are closer to
the key than those above it, and among the buckets below it the order depends on the bits of the key
(`KBucketKey.nearer_iff`).  And of the bucket in which the search ends the most recently seen peers
are taken, not the closest ones (`closest_not_nearest`).

## Main definitions

* `Nearer` : which of two buckets is closer to a key.
* `RawKBucketTable.SearchAgrees` : the search takes the peers that it should.

## Main results

* `closest_nearest_iff` : when `closest` returns the closest peers.
-/

namespace XStack

/-- The peers with k-index `j` are closer to a key than those with k-index `j'`, where `d` is the
distance of the key from the local one. -/
def Nearer (d : KBucketDistance) (j j' : ℕ) : Prop :=
  if j' < j then d.val.getLsbD j = true else d.val.getLsbD j' = false

instance (d : KBucketDistance) (j j' : ℕ) : Decidable (Nearer d j j') := by
  unfold Nearer
  infer_instance

theorem KBucketDistance.kIndex_spec {d : KBucketDistance} {j : ℕ} (h : d.kIndex = some j) :
    d.val.getLsbD j = true ∧ ∀ k, j < k → d.val.getLsbD k = false :=
  octave_iff.1 (kIndex_eq_some_iff.1 h)

namespace KBucketKey

variable [Sha256] {key localKey : KBucketKey} {x y : PeerId} {j j' : ℕ}

/-- The distance of a peer from a key, by their distances from the local key. -/
theorem peerDistance_val (key localKey : KBucketKey) (x : PeerId) : (key.peerDistance x).val =
    (localKey.peerDistance x).val ^^^ (key.distance localKey).val := by
  simp only [peerDistance, distance]
  rw [BitVec.xor_comm key.val localKey.val, BitVec.xor_assoc,
    ← BitVec.xor_assoc localKey.val, BitVec.xor_self, BitVec.zero_xor]

theorem getLsbD_peerDistance (key localKey : KBucketKey) (x : PeerId) (k : ℕ) :
    (key.peerDistance x).val.getLsbD k =
      ((localKey.peerDistance x).val.getLsbD k ^^ (key.distance localKey).val.getLsbD k) := by
  rw [peerDistance_val key localKey]
  exact BitVec.getLsbD_xor

theorem peerDistance_lt_of_bit (hhigh : ∀ k, j < k →
      (key.peerDistance x).val.getLsbD k = (key.peerDistance y).val.getLsbD k)
    (hx : (key.peerDistance x).val.getLsbD j = false)
    (hy : (key.peerDistance y).val.getLsbD j = true) :
    key.peerDistance x < key.peerDistance y :=
  Nat.lt_of_testBit j hx hy hhigh

/-- The bit of the distance at the higher of the two k-indices decides. -/
theorem peerDistance_lt_of_lt (key : KBucketKey) (hlt : j' < j) (hx : localKey.place x = some j)
    (hy : localKey.place y = some j') :
    if (key.distance localKey).val.getLsbD j = true then key.peerDistance x < key.peerDistance y
    else key.peerDistance y < key.peerDistance x := by
  obtain ⟨hxj, hxhigh⟩ := KBucketDistance.kIndex_spec hx
  obtain ⟨-, hyhigh⟩ := KBucketDistance.kIndex_spec hy
  -- above the higher k-index the distances agree, and at it they differ
  have hhigh : ∀ k, j < k →
      (key.peerDistance x).val.getLsbD k = (key.peerDistance y).val.getLsbD k := by
    intro k hk
    rw [getLsbD_peerDistance key localKey, getLsbD_peerDistance key localKey]
    exact congrArg (xor · _) ((hxhigh k hk).trans (hyhigh k (hlt.trans hk)).symm)
  have hxbit : (key.peerDistance x).val.getLsbD j = !(key.distance localKey).val.getLsbD j := by
    rw [getLsbD_peerDistance key localKey]
    exact (congrArg (xor · _) hxj).trans (Bool.true_xor _)
  have hybit : (key.peerDistance y).val.getLsbD j = (key.distance localKey).val.getLsbD j := by
    rw [getLsbD_peerDistance key localKey]
    exact (congrArg (xor · _) (hyhigh j hlt)).trans (Bool.false_xor _)
  cases hbit : (key.distance localKey).val.getLsbD j
  · rw [hbit] at hxbit hybit
    exact peerDistance_lt_of_bit (fun k hk => (hhigh k hk).symm) hybit hxbit
  · rw [hbit] at hxbit hybit
    exact peerDistance_lt_of_bit hhigh hxbit hybit

/-- **Which of two buckets is closer to a key.** -/
theorem nearer_iff (hne : j ≠ j') (hx : localKey.place x = some j)
    (hy : localKey.place y = some j') :
    Nearer (key.distance localKey) j j' ↔ key.peerDistance x ≤ key.peerDistance y := by
  unfold Nearer
  rcases Nat.lt_or_gt_of_ne hne with hlt | hlt
  · rw [if_neg hlt.not_gt]
    have hbit := peerDistance_lt_of_lt key hlt hy hx
    cases h : (key.distance localKey).val.getLsbD j' with
    | false =>
      rw [h, if_neg Bool.false_ne_true] at hbit
      exact iff_of_true rfl hbit.le
    | true =>
      rw [h, if_pos rfl] at hbit
      exact iff_of_false Bool.noConfusion hbit.not_ge
  · rw [if_pos hlt]
    have hbit := peerDistance_lt_of_lt key hlt hx hy
    cases h : (key.distance localKey).val.getLsbD j with
    | false =>
      rw [h, if_neg Bool.false_ne_true] at hbit
      exact iff_of_false Bool.false_ne_true hbit.not_ge
    | true =>
      rw [h, if_pos rfl] at hbit
      exact iff_of_true rfl hbit.le

end KBucketKey

namespace RawKBucketTable

variable {K : ℕ}

/-- The number of peers in the buckets that the search for a key visits before the given one. -/
def filledBefore (t : RawKBucketTable K) (key : KBucketKey) (j : ℕ) : ℕ :=
  before (fun j => (t.peersAt j).reverse) (zigzag 256 (t.startIndex key)) j

/-- The search for a key agrees with the distances: a bucket that it takes peers of is closer to the
key than another one that it leaves peers of, and in the bucket in which it ends the most recently
seen peers are the closest ones. -/
structure SearchAgrees [Sha256] (t : RawKBucketTable K) (key : KBucketKey) : Prop where
  /-- Of two different buckets. -/
  across : ∀ j < 256, ∀ j' < 256, j ≠ j' → t.peersAt j ≠ [] → t.filledBefore key j < K →
    K < t.filledBefore key j' + (t.peersAt j').length → t.peersAt j' ≠ [] →
    Nearer (key.distance t.localKey) j j'
  /-- Of one bucket. -/
  within : ∀ j < 256, ∀ y ∈ (t.peersAt j).reverse.take (K - t.filledBefore key j),
    ∀ x ∈ (t.peersAt j).reverse.drop (K - t.filledBefore key j),
    key.peerDistance y ≤ key.peerDistance x

section Spec

variable [Sha256] {localKey : KBucketKey} {t : RawKBucketTable K} {T : Buckets localKey.place K}

theorem Represents.place_eq (h : t.Represents T) {j : ℕ} {peerId : PeerId}
    (hmem : peerId ∈ t.peersAt j) : localKey.place peerId = some j := by
  rw [h.peersAt_eq] at hmem
  exact T.own j peerId hmem

/-- The search agrees with the distances if no bucket has a peer that is left and is closer than a
peer that is taken. -/
theorem Represents.searchAgrees_iff (h : t.Represents T) {key : KBucketKey} :
    t.SearchAgrees key ↔ ∀ j < 256, ∀ j' < 256,
      ∀ y ∈ (t.peersAt j).reverse.take (K - t.filledBefore key j),
      ∀ x ∈ (t.peersAt j').reverse.drop (K - t.filledBefore key j'),
      key.peerDistance y ≤ key.peerDistance x := by
  have hplace : ∀ {j y}, y ∈ (t.peersAt j).reverse → localKey.place y = some j :=
    fun hmem => h.place_eq (List.mem_reverse.1 hmem)
  constructor
  · intro hagrees j hj j' hj' y hy x hx
    by_cases he : j = j'
    · subst he
      exact hagrees.within j hj y hy x hx
    have hytaken := List.mem_of_mem_take hy
    have hxleft := List.mem_of_mem_drop hx
    -- the search takes peers of the one bucket and leaves peers of the other
    have hroom : 0 < ((t.peersAt j).reverse.take (K - t.filledBefore key j)).length :=
      List.length_pos_of_mem hy
    have hover : 0 < ((t.peersAt j').reverse.drop (K - t.filledBefore key j')).length :=
      List.length_pos_of_mem hx
    rw [List.length_take, List.length_reverse] at hroom
    rw [List.length_drop, List.length_reverse] at hover
    have hnearer := hagrees.across j hj j' hj' he
      (List.ne_nil_of_length_pos (by omega)) (by omega) (by omega)
      (List.ne_nil_of_length_pos (by omega))
    rw [h.localKey_eq] at hnearer
    exact (KBucketKey.nearer_iff he (hplace hytaken) (hplace hxleft)).1 hnearer
  · intro hall
    refine ⟨fun j hj j' hj' he hne hroom hover hne' => ?_, fun j hj => hall j hj j hj⟩
    have hpos := List.length_pos_of_ne_nil hne
    have hpos' := List.length_pos_of_ne_nil hne'
    obtain ⟨y, hy⟩ : ∃ y, y ∈ (t.peersAt j).reverse.take (K - t.filledBefore key j) := by
      refine List.exists_mem_of_length_pos ?_
      rw [List.length_take, List.length_reverse]
      omega
    obtain ⟨x, hx⟩ : ∃ x, x ∈ (t.peersAt j').reverse.drop (K - t.filledBefore key j') := by
      refine List.exists_mem_of_length_pos ?_
      rw [List.length_drop, List.length_reverse]
      omega
    rw [h.localKey_eq]
    exact (KBucketKey.nearer_iff he (hplace (List.mem_of_mem_take hy))
      (hplace (List.mem_of_mem_drop hx))).2 (hall j hj j' hj' y hy x hx)

/-- **When `closest` returns the closest peers.** -/
theorem closest_nearest_iff (h : t.Represents T) (key : KBucketKey) :
    ∃ fuel₀, ∀ fuel, fuel₀ ≤ fuel → ∃ peers, t.closest fuel key = .ok (some peers) ∧
      ((∀ x ∈ t.peers, x ∉ peers → ∀ y ∈ peers, ¬ key.peerDistance x < key.peerDistance y) ↔
        t.SearchAgrees key) := by
  have hi := t.startIndex_lt key
  refine ⟨256, fun fuel hfuel => ⟨_, h.searchable.closest_spec hfuel key, ?_⟩⟩
  rw [h.searchAgrees_iff]
  calc (∀ x ∈ t.peers, x ∉ (t.scan (t.startIndex key)).take K →
        ∀ y ∈ (t.scan (t.startIndex key)).take K, ¬ key.peerDistance x < key.peerDistance y)
      ↔ (∀ x ∈ t.scan (t.startIndex key), x ∉ (t.scan (t.startIndex key)).take K →
        ∀ y ∈ (t.scan (t.startIndex key)).take K,
          ¬ key.peerDistance x < key.peerDistance y) := by
        simp only [(h.searchable.scan_perm hi).mem_iff]
    _ ↔ _ := scan_least_iff (h.searchable.nodup_scan _)
    _ ↔ _ := by
      simp only [mem_zigzag hi]
      rfl

end Spec

section Sample

attribute [local instance] Sha256.ofNodes

theorem closest_nearest_iff_tableOf132 :
    ∃ fuel₀, ∀ fuel, fuel₀ ≤ fuel → ∃ peers,
      tableOf132.closest fuel (.ofPeerId (node 1)) = .ok (some peers) ∧
      ((∀ x ∈ tableOf132.peers, x ∉ peers → ∀ y ∈ peers,
          ¬ (KBucketKey.ofPeerId (node 1)).peerDistance x <
            (KBucketKey.ofPeerId (node 1)).peerDistance y) ↔
        tableOf132.SearchAgrees (.ofPeerId (node 1))) := by
  obtain ⟨T, hT⟩ := insertPrvLts_represents (by decide) reachable_tableOf132
  exact closest_nearest_iff hT.table _

/-- The two peers close to the id of node 1 should be the nodes 1 and 3, but node 3 is the less
recently seen one of its bucket and is left out. -/
theorem closest_not_nearest :
    (insertPrvLts 2 (.ofPeerId (node 0))).Reachable ⟨3, tableOf132⟩ ∧
    tableOf132.closest 256 (.ofPeerId (node 1)) = .ok (some [node 1, node 2]) ∧
    node 3 ∈ tableOf132.peers ∧ node 3 ∉ [node 1, node 2] ∧
    (KBucketKey.ofPeerId (node 1)).peerDistance (node 3) <
      (KBucketKey.ofPeerId (node 1)).peerDistance (node 2) := by
  refine ⟨reachable_tableOf132, ?_, by decide, by decide, by decide⟩
  have hstart : tableOf132.startIndex (.ofPeerId (node 1)) = 254 := by
    simp [startIndex, tableOf132, tableOf1, addBucket, empty, kIndex_nodes.1]
  have hfirst : tableOf132.bucket 254 = .ok (some ⟨[node 1]⟩) := by
    simp [bucket, tableOf132, tableOf1, addBucket, empty]
  have hlower : tableOf132.bucket 253 = .ok none := by
    simp [bucket, tableOf132, tableOf1, addBucket, empty]
  have hupper : tableOf132.bucket 255 = .ok (some ⟨[node 3, node 2]⟩) := by
    simp [bucket, tableOf132, tableOf1, addBucket, empty]
  have hvisitLower : tableOf132.visitLower 254 1 [node 1] = .ok (false, [node 1]) := by
    simp [visitLower, usizeSub, visit, hlower, bind, Except.bind, pure, Except.pure]
  have hvisitUpper : tableOf132.visitUpper 254 1 [node 1] = .ok (true, [node 1, node 2]) := by
    simp [visitUpper, usizeSub, visit, hupper, KBucket.len, bind, Except.bind, pure, Except.pure]
  simp [closest, hstart, hfirst, closestLoop, hvisitLower, hvisitUpper, Except.map, bind,
    Except.bind, pure, Except.pure]

end Sample

end RawKBucketTable

end XStack
