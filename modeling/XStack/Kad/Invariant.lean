import XStack.Data.Recency
import XStack.Kad.Nodes
import XStack.Kad.Table
import XStack.Lts.Basic
import Mathlib.Algebra.BigOperators.Group.List.Basic

/-!
# The representation invariant of the routing table

What a routing table is for is a family of bounded lists ordered by recency, one for each k-index
(`Buckets`, in `XStack.Data.Recency`).  `RawKBucketTable` stores the family lazily, and
`KBucketTable` counts its elements; `Represents` relates the two to the family.  `insert_prv` is
then `Buckets.offer`, and nothing else has to be known of it.

## Main definitions

* `KBucketKey.place` : the k-index of a peer as seen from the local node.
* `RawKBucketTable.Represents`, `KBucketTable.Represents` : the refinement relations.
* `insertPrvLts` : the runs of `insert_prv` steps.
* `KBucketTable.Invariant` : the representation invariant, clause by clause.

## Main results

* `RawKBucketTable.tryInsert_spec`, `KBucketTable.insertPrv_spec` : `insert_prv` is `offer`.
* `kbucket_table_invariant` : the invariant holds in every reachable table.
-/

namespace XStack

/-- The k-index of a peer, as seen from the node with the given key. -/
def KBucketKey.place [Sha256] (localKey : KBucketKey) (peerId : PeerId) : Option ℕ :=
  ((ofPeerId peerId).distance localKey).kIndex

theorem KBucketKey.place_eq_none_iff [Sha256] {localKey : KBucketKey} {peerId : PeerId} :
    localKey.place peerId = none ↔ ofPeerId peerId = localKey := kIndex_distance_eq_none_iff

theorem KBucketKey.exists_place [Sha256] {localKey : KBucketKey} {peerId : PeerId}
    (h : ofPeerId peerId ≠ localKey) : ∃ i, localKey.place peerId = some i :=
  Option.ne_none_iff_exists'.1 (mt place_eq_none_iff.1 h)

variable {K : ℕ}

/-- On the peers of a recency list, `try_insert` is `offer`. -/
theorem KBucket.tryInsert_eq {b : KBucket K} {r : Recency PeerId K} (h : b.peers = r.items)
    (peerId : PeerId) :
    b.tryInsert peerId = ((r.offer peerId).1, ⟨(r.offer peerId).2.items⟩) := by
  have hle := r.length_le
  unfold KBucket.tryInsert Recency.offer KBucket.len
  rw [h]
  cases hf : r.items.findIdx? (· == peerId) with
  | some index =>
    have herase : r.items.erase peerId = r.items.eraseIdx index := by
      rw [List.erase_eq_eraseIdx, List.idxOf?, hf]
    have hmem : peerId ∈ r.items := by
      obtain ⟨hlt, heq, -⟩ := List.findIdx?_eq_some_iff_getElem.1 hf
      exact List.mem_of_getElem (beq_iff_eq.1 heq)
    simp only [hmem, ↓reduceDIte, Recency.touch, herase]
  | none =>
    have hmem : peerId ∉ r.items := by
      intro hmem
      simpa using List.findIdx?_eq_none_iff.1 hf peerId hmem
    by_cases hK : r.items.length = K
    · simp [hmem, hK, Recency.pop]
    · have hlt : r.items.length < K := by omega
      simp [hmem, hK, hlt, Recency.push]

namespace RawKBucketTable

/-- The position of the bucket of a k-index. -/
def slot (t : RawKBucketTable K) (i : ℕ) : Option ℕ := t.kIndex[i]?.join

/-- The peers in the bucket of a k-index. -/
def peersAt (t : RawKBucketTable K) (i : ℕ) : List PeerId :=
  match t.slot i with
  | some index => (t.kBuckets[index]?.map KBucket.peers).getD []
  | none => []

/-- The number of stored peers. -/
def size (t : RawKBucketTable K) : ℕ := (t.kBuckets.map KBucket.len).sum

/-- The table stores the family `T`: `kIndex` is a bijection between the k-indices that have a
bucket and the buckets, and the buckets are the lists of `T`. -/
structure Represents [Sha256] (t : RawKBucketTable K) {localKey : KBucketKey}
    (T : Buckets localKey.place K) : Prop where
  /-- The key of the local node. -/
  localKey_eq : t.localKey = localKey
  /-- A slot points to a bucket. -/
  slot_lt : ∀ {i index}, t.slot i = some index → index < t.kBuckets.length
  /-- No bucket has two slots. -/
  slot_inj : ∀ {i j index}, t.slot i = some index → t.slot j = some index → i = j
  /-- Every bucket has a slot. -/
  slot_surj : ∀ {index}, index < t.kBuckets.length → ∃ i, t.slot i = some index
  /-- The buckets are the lists of the family. -/
  peersAt_eq : ∀ i, t.peersAt i = (T.bucket i).items

theorem peersAt_of_slot {t : RawKBucketTable K} {i index : ℕ} {b : KBucket K}
    (hs : t.slot i = some index) (hb : t.kBuckets[index]? = some b) : t.peersAt i = b.peers := by
  simp [peersAt, hs, hb]

theorem slot_eq_some_iff {t : RawKBucketTable K} {i index : ℕ} :
    t.slot i = some index ↔ t.kIndex[i]? = some (some index) := Option.join_eq_some_iff

theorem sum_len_set {bs : List (KBucket K)} {index : ℕ} {b : KBucket K}
    (hb : bs[index]? = some b) (b' : KBucket K) :
    ((bs.set index b').map KBucket.len).sum + b.len = (bs.map KBucket.len).sum + b'.len := by
  obtain ⟨hlt, hget⟩ := List.getElem?_eq_some_iff.1 hb
  obtain ⟨l₁, l₂, hl, -, hset⟩ : ∃ l₁ l₂, bs = l₁ ++ bs[index] :: l₂ ∧ l₁.length = index ∧
      bs.set index b' = l₁ ++ b' :: l₂ := List.exists_of_set hlt
  rw [hset]
  conv_rhs => rw [hl]
  simp only [List.map_append, List.map_cons, List.sum_append, List.sum_cons, hget]
  omega

/-! ### Replacing and adding a bucket -/

/-- Replace a bucket. -/
def setBucket (t : RawKBucketTable K) (index : ℕ) (b : KBucket K) : RawKBucketTable K :=
  { t with kBuckets := t.kBuckets.set index b }

/-- Add the bucket of a k-index. -/
def addBucket (t : RawKBucketTable K) (i : ℕ) (b : KBucket K) : RawKBucketTable K :=
  { t with
    kBuckets := t.kBuckets ++ [b]
    kIndex := t.kIndex.setIfInBounds i (some t.kBuckets.length) }

@[simp] theorem slot_setBucket (t : RawKBucketTable K) (index : ℕ) (b : KBucket K) (j : ℕ) :
    (t.setBucket index b).slot j = t.slot j := rfl

theorem slot_addBucket (t : RawKBucketTable K) {i : ℕ} (hi : i < 256) (b : KBucket K) (j : ℕ) :
    (t.addBucket i b).slot j = if j = i then some t.kBuckets.length else t.slot j := by
  rcases eq_or_ne j i with rfl | hj
  · simp [slot, addBucket, hi]
  · simp [slot, addBucket, hj, hj.symm]

variable [Sha256] {localKey : KBucketKey} {t : RawKBucketTable K} {T T' : Buckets localKey.place K}

theorem represents_empty :
    (empty localKey : RawKBucketTable K).Represents
      (⟨fun _ => .empty, by simp [Recency.empty]⟩ : Buckets localKey.place K) := by
  have hslot : ∀ i, (empty localKey : RawKBucketTable K).slot i = none := by
    intro i
    simp only [slot, empty, Vector.getElem?_replicate]
    split_ifs <;> rfl
  refine ⟨rfl, ?_, ?_, ?_, ?_⟩
  · intro i index h; rw [hslot] at h; cases h
  · intro i j index h; rw [hslot] at h; cases h
  · intro index h; exact absurd h (Nat.not_lt_zero _)
  · intro i; simp [peersAt, hslot, Recency.empty]

theorem Represents.exists_slot (h : t.Represents T) {index : ℕ} {b : KBucket K}
    (hb : t.kBuckets[index]? = some b) :
    ∃ i, t.slot i = some index ∧ b.peers = (T.bucket i).items := by
  obtain ⟨hlt, -⟩ := List.getElem?_eq_some_iff.1 hb
  obtain ⟨i, hs⟩ := h.slot_surj hlt
  exact ⟨i, hs, (peersAt_of_slot hs hb).symm.trans (h.peersAt_eq i)⟩

/-- Replacing a bucket stores the family that differs at its k-index. -/
theorem Represents.setBucket (h : t.Represents T) {i index : ℕ} (hs : t.slot i = some index)
    {b : KBucket K} (hb : b.peers = (T'.bucket i).items)
    (hT : ∀ j, j ≠ i → T'.bucket j = T.bucket j) : (t.setBucket index b).Represents T' where
  localKey_eq := h.localKey_eq
  slot_lt hj := by
    rw [RawKBucketTable.setBucket, List.length_set]
    exact h.slot_lt hj
  slot_inj := h.slot_inj
  slot_surj hlt := by
    rw [RawKBucketTable.setBucket, List.length_set] at hlt
    exact h.slot_surj hlt
  peersAt_eq j := by
    rcases eq_or_ne j i with rfl | hj
    · rw [← hb]
      exact peersAt_of_slot hs (List.getElem?_set_self (h.slot_lt hs))
    · -- another k-index has its bucket at another position
      rw [hT j hj, ← h.peersAt_eq j]
      cases hsj : t.slot j with
      | none => simp [peersAt, hsj]
      | some index' =>
        have hne : index ≠ index' := by
          rintro rfl
          exact hj (h.slot_inj hsj hs)
        rw [peersAt, peersAt, slot_setBucket, hsj]
        simp [RawKBucketTable.setBucket, List.getElem?_set_ne hne]

/-- Adding the bucket of a k-index that has none stores the family that differs there. -/
theorem Represents.addBucket (h : t.Represents T) {i : ℕ} (hi : i < 256) (hs : t.slot i = none)
    {b : KBucket K} (hb : b.peers = (T'.bucket i).items)
    (hT : ∀ j, j ≠ i → T'.bucket j = T.bucket j) : (t.addBucket i b).Represents T' where
  localKey_eq := h.localKey_eq
  slot_lt {j index} hj := by
    rw [slot_addBucket t hi] at hj
    rw [RawKBucketTable.addBucket, List.length_append, List.length_singleton]
    split_ifs at hj with hji
    · cases hj; omega
    · have hlt := h.slot_lt hj; omega
  slot_inj {j j' index} hj hj' := by
    rw [slot_addBucket t hi] at hj hj'
    split_ifs at hj hj' with hji hji' hji'
    · rw [hji, hji']
    · cases hj; exact absurd (h.slot_lt hj') (Nat.lt_irrefl _)
    · cases hj'; exact absurd (h.slot_lt hj) (Nat.lt_irrefl _)
    · exact h.slot_inj hj hj'
  slot_surj {index} hlt := by
    rw [RawKBucketTable.addBucket, List.length_append, List.length_singleton] at hlt
    rcases Nat.lt_or_ge index t.kBuckets.length with hold | hnew
    · obtain ⟨j, hj⟩ := h.slot_surj hold
      have hji : j ≠ i := by rintro rfl; rw [hs] at hj; cases hj
      exact ⟨j, by rw [slot_addBucket t hi, if_neg hji, hj]⟩
    · -- the new bucket is the last one
      have hlast : index = t.kBuckets.length := by omega
      exact ⟨i, by rw [slot_addBucket t hi, if_pos rfl, hlast]⟩
  peersAt_eq j := by
    have hj := slot_addBucket t hi b j
    rcases eq_or_ne j i with rfl | hji
    · rw [if_pos rfl] at hj
      rw [← hb]
      exact peersAt_of_slot hj (by simp [RawKBucketTable.addBucket])
    · rw [if_neg hji] at hj
      rw [hT j hji, ← h.peersAt_eq j, peersAt, peersAt, hj]
      cases hsj : t.slot j with
      | none => rfl
      | some index =>
        simp [RawKBucketTable.addBucket, List.getElem?_append_left (h.slot_lt hsj)]

/-! ### The step of the table -/

/-- **`try_insert` is `offer`**: for a peer with a k-index it succeeds and reports what `offer`
reports, the table stores the family after the offer, and its size changes as the list does. -/
theorem tryInsert_spec (hK : 0 < K) (h : t.Represents T) {peerId : PeerId} {i : ℕ}
    (hi : localKey.place peerId = some i) :
    ∃ t', t.tryInsert peerId = .ok ((T.offer peerId hi).1, t') ∧
      t'.Represents (T.offer peerId hi).2 ∧
      t'.size + (T.bucket i).items.length =
        t.size + ((T.offer peerId hi).2.bucket i).items.length := by
  have hlt : i < 256 := KBucketDistance.kIndex_lt hi
  have hkey : ((KBucketKey.ofPeerId peerId).distance t.localKey).kIndex = some i := by
    rw [h.localKey_eq]; exact hi
  have hget : t.kIndex[i]? = some (t.slot i) := by simp [slot, hlt]
  cases hs : t.slot i with
  | some index =>
    -- the bucket exists, and `KBucket::try_insert` runs on it
    have hidx := h.slot_lt hs
    have hb : t.kBuckets[index]? = some t.kBuckets[index] := List.getElem?_eq_getElem hidx
    have hpeers := (peersAt_of_slot hs hb).symm.trans (h.peersAt_eq i)
    have htry := KBucket.tryInsert_eq hpeers peerId
    refine ⟨t.setBucket index ⟨((T.bucket i).offer peerId).2.items⟩, ?_,
      h.setBucket hs (by rw [T.offer_self hi]) fun j hj => T.offer_ne hi hj, ?_⟩
    · simp only [tryInsert, hkey, hget, hs, hb, htry]
      rfl
    · rw [T.offer_self hi, ← hpeers]
      exact sum_len_set hb _
  | none =>
    -- the bucket is created with the peer in it
    have hempty : (T.bucket i).items = [] := by rw [← h.peersAt_eq i, peersAt, hs]
    have hoffer : (T.bucket i).offer peerId =
        (none, (T.bucket i).push peerId (by simp [hempty]) (by simpa [hempty] using hK)) := by
      simp [Recency.offer, hempty, hK]
    have hitems : ((T.offer peerId hi).2.bucket i).items = [peerId] := by
      rw [T.offer_self hi, hoffer]
      simp [Recency.push, hempty]
    refine ⟨t.addBucket i (.new peerId), ?_,
      h.addBucket hlt hs hitems.symm fun j hj => T.offer_ne hi hj, ?_⟩
    · simp [tryInsert, hkey, hget, hs, hoffer, RawKBucketTable.addBucket]
    · rw [hitems, hempty]
      simp [size, RawKBucketTable.addBucket, KBucket.len, KBucket.new]

end RawKBucketTable

namespace KBucketTable

variable [Sha256] {localKey : KBucketKey}

/-- The table stores the family `T` and counts its elements. -/
structure Represents (t : KBucketTable K) (T : Buckets localKey.place K) : Prop where
  /-- The table stores the family. -/
  table : t.table.Represents T
  /-- The counter is the number of stored peers. -/
  len_eq : t.len = t.table.size

/-- **`insert_prv` is `offer`**: for a peer with a k-index it succeeds and reports what `offer`
reports, and the table stores the family after the offer and counts its elements.  If it reports
another peer, there was one to be subtracted. -/
theorem insertPrv_spec (hK : 0 < K) {t : KBucketTable K} {T : Buckets localKey.place K}
    (h : t.Represents T) {peerId : PeerId} {i : ℕ} (hi : localKey.place peerId = some i) :
    ∃ t', t.insertPrv peerId = .ok ((T.offer peerId hi).1, t') ∧
      t'.Represents (T.offer peerId hi).2 ∧
      ∀ pop, (T.offer peerId hi).1 = some pop → pop ≠ peerId → 0 < t.len := by
  obtain ⟨table, htry, hrep, hsize⟩ := RawKBucketTable.tryInsert_spec hK h.table hi
  have hlen := h.len_eq
  rw [T.offer_self hi] at hsize
  rw [T.offer_fst hi] at htry ⊢
  rcases Recency.offer_cases hK (T.bucket i) peerId with
    ⟨hmem, he⟩ | ⟨hmem, hroom, he⟩ | ⟨hmem, hfull, lru, rest, hitems, he⟩
  · rw [he] at htry hsize ⊢
    rw [((T.bucket i).touch_perm hmem).length_eq] at hsize
    refine ⟨_, by rw [insertPrv, htry]; rfl, ⟨hrep, by simp; omega⟩, ?_⟩
    intro pop hpop hne
    cases hpop
    exact absurd rfl hne
  · rw [he] at htry hsize ⊢
    refine ⟨_, by rw [insertPrv, htry]; rfl, ⟨hrep, ?_⟩, fun pop hpop => by cases hpop⟩
    simp only [Recency.push_items, List.length_append, List.length_singleton] at hsize
    simp only [fetchAdd]
    omega
  · -- the peer that made way is another one, and the counter is not zero
    have hne : lru ≠ peerId := by
      rintro rfl
      exact hmem (hitems ▸ List.mem_cons_self)
    rw [he] at htry hsize ⊢
    simp only [Recency.pop_items, List.length_tail] at hsize
    refine ⟨_, by rw [insertPrv, htry]; rfl, ⟨hrep, ?_⟩, fun _ _ _ => by omega⟩
    simp only [ne_eq, hne, not_false_eq_true, ↓reduceIte, fetchSub]
    split_ifs <;> omega

theorem place_of_insertPrv {t t' : KBucketTable K} (hkey : t.table.localKey = localKey)
    {peerId : PeerId} {r : Option PeerId} (h : t.insertPrv peerId = .ok (r, t')) :
    ∃ i, localKey.place peerId = some i := by
  cases hi : localKey.place peerId with
  | some i => exact ⟨i, rfl⟩
  | none =>
    rw [← hkey] at hi
    simp only [KBucketKey.place] at hi
    simp only [insertPrv, RawKBucketTable.tryInsert, hi] at h
    cases h

/-- The representation invariant, clause by clause. -/
structure Invariant (localKey : KBucketKey) (t : KBucketTable K) : Prop where
  /-- No bucket has more than `K` entries. -/
  len_le : ∀ b ∈ t.table.kBuckets, b.len ≤ K
  /-- No bucket has duplicates. -/
  nodup : ∀ b ∈ t.table.kBuckets, b.peers.Nodup
  /-- The peers in the bucket reached through `kIndex[i]` have k-index `i`. -/
  own : ∀ (i index : ℕ) b, t.table.kIndex[i]? = some (some index) →
    t.table.kBuckets[index]? = some b → ∀ peerId ∈ b.peers,
      ((KBucketKey.ofPeerId peerId).distance localKey).kIndex = some i
  /-- No peer is in two buckets. -/
  disjoint : ∀ (index index' : ℕ) b b' peerId, t.table.kBuckets[index]? = some b →
    t.table.kBuckets[index']? = some b' → peerId ∈ b.peers → peerId ∈ b'.peers → index = index'
  /-- The slots in use point to buckets. -/
  kIndex_lt : ∀ i index : ℕ, t.table.kIndex[i]? = some (some index) →
    index < t.table.kBuckets.length
  /-- Every bucket is pointed to by exactly one slot. -/
  kIndex_unique : ∀ index, index < t.table.kBuckets.length →
    ∃! i : ℕ, t.table.kIndex[i]? = some (some index)
  /-- The counter is the sum of the sizes of the buckets. -/
  len_eq : t.len = (t.table.kBuckets.map KBucket.len).sum
  /-- When a peer is evicted and the counter is decremented, it is not zero. -/
  len_pos : ∀ peerId pop t', t.insertPrv peerId = .ok (some pop, t') → pop ≠ peerId → 0 < t.len

theorem Represents.invariant (hK : 0 < K) {t : KBucketTable K} {T : Buckets localKey.place K}
    (h : t.Represents T) : t.Invariant localKey where
  len_le b hb := by
    obtain ⟨index, hb⟩ := List.getElem?_of_mem hb
    obtain ⟨i, -, hitems⟩ := h.table.exists_slot hb
    rw [KBucket.len, hitems]
    exact (T.bucket i).length_le
  nodup b hb := by
    obtain ⟨index, hb⟩ := List.getElem?_of_mem hb
    obtain ⟨i, -, hitems⟩ := h.table.exists_slot hb
    rw [hitems]
    exact (T.bucket i).nodup
  own i index b hi hb peerId hmem := by
    have hs := RawKBucketTable.slot_eq_some_iff.2 hi
    rw [← RawKBucketTable.peersAt_of_slot hs hb, h.table.peersAt_eq i] at hmem
    exact T.own i peerId hmem
  disjoint index index' b b' peerId hb hb' hmem hmem' := by
    obtain ⟨i, hs, hitems⟩ := h.table.exists_slot hb
    obtain ⟨i', hs', hitems'⟩ := h.table.exists_slot hb'
    rw [hitems] at hmem
    rw [hitems'] at hmem'
    rw [T.eq_of_mem hmem hmem', hs'] at hs
    exact (Option.some.inj hs).symm
  kIndex_lt i index hi := h.table.slot_lt (RawKBucketTable.slot_eq_some_iff.2 hi)
  kIndex_unique index hlt := by
    obtain ⟨i, hi⟩ := h.table.slot_surj hlt
    refine ⟨i, RawKBucketTable.slot_eq_some_iff.1 hi, ?_⟩
    intro j hj
    exact h.table.slot_inj (RawKBucketTable.slot_eq_some_iff.2 hj) hi
  len_eq := h.len_eq
  len_pos peerId pop t' hins hne := by
    obtain ⟨i, hi⟩ := place_of_insertPrv h.table.localKey_eq hins
    obtain ⟨t'', hins', -, hpos⟩ := insertPrv_spec hK h hi
    rw [hins] at hins'
    injection hins' with hpair
    exact hpos pop (congrArg Prod.fst hpair).symm hne

end KBucketTable

/-- The runs of `insert_prv` steps, on behalf of inserts and of ping tasks, with peers other than
the local one, from an empty table. -/
def insertPrvLts [Sha256] (K : ℕ) (localKey : KBucketKey) : Lts (KBucketTable K) PeerId where
  init t := t = ⟨0, .empty localKey⟩
  step t peerId t' :=
    KBucketKey.ofPeerId peerId ≠ localKey ∧ ∃ r, t.insertPrv peerId = .ok (r, t')

/-- Every reachable table stores some family and counts its elements. -/
theorem insertPrvLts_represents [Sha256] (hK : 0 < K) {localKey : KBucketKey} {t : KBucketTable K}
    (h : (insertPrvLts K localKey).Reachable t) :
    ∃ T : Buckets localKey.place K, t.Represents T := by
  refine h.invariant (I := fun t => ∃ T : Buckets localKey.place K, t.Represents T) ?_ ?_
  · rintro t rfl
    exact ⟨_, RawKBucketTable.represents_empty, rfl⟩
  · rintro t peerId t' ⟨T, hT⟩ ⟨hne, r, hstep⟩
    obtain ⟨i, hi⟩ := KBucketKey.exists_place hne
    obtain ⟨t'', hstep', hT', -⟩ := KBucketTable.insertPrv_spec hK hT hi
    rw [hstep] at hstep'
    cases hstep'
    exact ⟨_, hT'⟩

/-- **The representation invariant of the routing table.**  It holds in every reachable table, and
`insert_prv` succeeds there for every peer other than the local one. -/
theorem kbucket_table_invariant [Sha256] (hK : 0 < K) {localKey : KBucketKey} {t : KBucketTable K}
    (h : (insertPrvLts K localKey).Reachable t) :
    t.Invariant localKey ∧
      ∀ peerId, KBucketKey.ofPeerId peerId ≠ localKey → ∃ r, t.insertPrv peerId = .ok r := by
  obtain ⟨T, hT⟩ := insertPrvLts_represents hK h
  refine ⟨hT.invariant hK, ?_⟩
  intro peerId hne
  obtain ⟨i, hi⟩ := KBucketKey.exists_place hne
  obtain ⟨t', hins, -⟩ := KBucketTable.insertPrv_spec hK hT hi
  exact ⟨_, hins⟩

section Sample

attribute [local instance] Sha256.ofNodes

namespace RawKBucketTable

/-- The table of node 0 after it has met node 1. -/
def tableOf1 : RawKBucketTable 2 :=
  (RawKBucketTable.empty (.ofPeerId (node 0))).addBucket 254 ⟨[node 1]⟩

/-- The table of node 0 after it has met the nodes 1, 3 and 2. -/
def tableOf132 : RawKBucketTable 2 := tableOf1.addBucket 255 ⟨[node 3, node 2]⟩

theorem kIndex_nodes :
    ((KBucketKey.ofPeerId (node 1)).distance (.ofPeerId (node 0))).kIndex = some 254 ∧
    ((KBucketKey.ofPeerId (node 2)).distance (.ofPeerId (node 0))).kIndex = some 255 ∧
    ((KBucketKey.ofPeerId (node 3)).distance (.ofPeerId (node 0))).kIndex = some 255 := by
  decide

theorem reachable_tableOf132 :
    (insertPrvLts 2 (.ofPeerId (node 0))).Reachable ⟨3, tableOf132⟩ := by
  obtain ⟨hk₁, hk₂, hk₃⟩ := kIndex_nodes
  have h₁ : (insertPrvLts 2 (.ofPeerId (node 0))).step ⟨0, .empty (.ofPeerId (node 0))⟩ (node 1)
      ⟨1, tableOf1⟩ := by
    refine ⟨by decide, none, ?_⟩
    simp [KBucketTable.insertPrv, RawKBucketTable.tryInsert, RawKBucketTable.empty, hk₁, fetchAdd,
      Except.map, tableOf1, RawKBucketTable.addBucket, KBucket.new]
  have h₂ : (insertPrvLts 2 (.ofPeerId (node 0))).step ⟨1, tableOf1⟩ (node 3)
      ⟨2, tableOf1.addBucket 255 ⟨[node 3]⟩⟩ := by
    refine ⟨by decide, none, ?_⟩
    simp [KBucketTable.insertPrv, RawKBucketTable.tryInsert, RawKBucketTable.empty, hk₃, fetchAdd,
      Except.map, tableOf1, RawKBucketTable.addBucket, KBucket.new]
  have h₃ : (insertPrvLts 2 (.ofPeerId (node 0))).step
      ⟨2, tableOf1.addBucket 255 ⟨[node 3]⟩⟩ (node 2) ⟨3, tableOf132⟩ := by
    refine ⟨by decide, none, ?_⟩
    have hne : node 3 ≠ node 2 := by decide
    simp [KBucketTable.insertPrv, RawKBucketTable.tryInsert, RawKBucketTable.empty, hk₂, fetchAdd,
      Except.map, tableOf1, tableOf132, RawKBucketTable.addBucket, KBucket.tryInsert, KBucket.len,
      hne]
  exact (((Lts.Reachable.start rfl).snoc h₁).snoc h₂).snoc h₃

end RawKBucketTable

/-- The table of node 0 after it has met the nodes 1, 3, 2 and 5: the last one finds its bucket
full, and node 3 leaves it. -/
def tableOf1325 : KBucketTable 2 := ⟨2, RawKBucketTable.tableOf1.addBucket 255 ⟨[node 2]⟩⟩

theorem reachable_tableOf1325 :
    (insertPrvLts 2 (.ofPeerId (node 0))).Reachable tableOf1325 := by
  have hk : ((KBucketKey.ofPeerId (node 5)).distance (.ofPeerId (node 0))).kIndex = some 255 := by
    decide
  refine RawKBucketTable.reachable_tableOf132.snoc (l := node 5) ⟨by decide, some (node 3), ?_⟩
  have hfull : (⟨[node 3, node 2]⟩ : KBucket 2).tryInsert (node 5) =
      (some (node 3), ⟨[node 2]⟩) := by decide
  have hne : node 3 ≠ node 5 := by decide
  simp [KBucketTable.insertPrv, RawKBucketTable.tryInsert, RawKBucketTable.empty, hk, fetchSub,
    Except.map, RawKBucketTable.tableOf1, RawKBucketTable.tableOf132, tableOf1325,
    RawKBucketTable.addBucket, hfull, hne]

theorem kbucket_table_invariant_tableOf1325 :
    tableOf1325.Invariant (.ofPeerId (node 0)) ∧
      ∀ peerId, KBucketKey.ofPeerId peerId ≠ .ofPeerId (node 0) →
        ∃ r, tableOf1325.insertPrv peerId = .ok r :=
  kbucket_table_invariant (by decide) reachable_tableOf1325

end Sample

end XStack
