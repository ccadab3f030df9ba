import XStack.Data.Xor
import XStack.Kad.Key

/-!
# The geometry of the buckets

The k-index of a distance is its octave, and so the buckets of a key are spheres around it: two
keys of one bucket are nearer to each other than to the key, and seen from a key of a higher bucket
all keys of the lower ones are as far away as the key itself (`bucket_geometry`).

## Main results

* `KBucketDistance.kIndex_eq_some_iff` : the k-index is the octave.
* `KBucketKey.distance_triangle` : the distance satisfies the triangle inequality.
* `KBucketKey.bucket_geometry`.
-/

namespace XStack

/-- The k-index is the octave of the distance. -/
theorem KBucketDistance.kIndex_eq_some_iff {d : KBucketDistance} {i : ℕ} :
    d.kIndex = some i ↔ Octave i d.val.toNat := by
  have hoctave : ∀ {j}, d.kIndex = some j → Octave j d.val.toNat := by
    intro j hj
    have hne : d.val ≠ 0#256 := by
      intro hzero
      rw [kIndex_eq_none_iff.2 hzero] at hj
      cases hj
    have hlt : d.val.leadingZeros < 256 := U256.leadingZeros_lt_iff.2 hne
    have hcount : 256 - 1 - d.val.leadingZeros = j ∧ 256 - d.val.leadingZeros = j + 1 := by
      unfold kIndex checkedSub at hj
      split_ifs at hj
      cases hj
      omega
    constructor
    · rw [← hcount.1]
      exact BitVec.two_pow_sub_clz_le_toNat_of_ne_zero (by decide) hne
    · rw [← hcount.2]
      exact BitVec.toNat_lt_two_pow_sub_clz
  refine ⟨hoctave, fun h => ?_⟩
  cases hindex : d.kIndex with
  | none =>
    have hzero : d.val.toNat = 0 := by rw [kIndex_eq_none_iff.1 hindex]; rfl
    have hpos := Nat.two_pow_pos i
    have hle := h.1
    omega
  | some j => exact congrArg some (Octave.unique (hoctave hindex) h)

namespace KBucketKey

theorem toNat_distance (a b : KBucketKey) :
    (a.distance b).val.toNat = a.val.toNat ^^^ b.val.toNat := BitVec.toNat_xor ..

theorem distance_comm (a b : KBucketKey) : a.distance b = b.distance a :=
  congrArg KBucketDistance.mk (BitVec.xor_comm a.val b.val)

/-- The way over a third key. -/
theorem toNat_distance_via (x y z : KBucketKey) : (x.distance y).val.toNat =
    (x.distance z).val.toNat ^^^ (z.distance y).val.toNat := by
  rw [toNat_distance, toNat_distance, toNat_distance, Nat.xor_assoc,
    ← Nat.xor_assoc z.val.toNat, Nat.xor_self, Nat.zero_xor]

theorem distance_triangle (x y z : KBucketKey) : (x.distance y).val.toNat ≤
    (x.distance z).val.toNat + (z.distance y).val.toNat := by
  rw [toNat_distance_via x y z]
  exact xor_le_add _ _

variable {l x y : KBucketKey} {i : ℕ}

/-- Two keys of one bucket are near to each other. -/
theorem distance_lt_of_kIndex (hx : (l.distance x).kIndex = some i)
    (hy : (l.distance y).kIndex = some i) : (x.distance y).val.toNat < 2 ^ i := by
  rw [toNat_distance_via x y l, distance_comm x l]
  exact (KBucketDistance.kIndex_eq_some_iff.1 hx).xor_lt (KBucketDistance.kIndex_eq_some_iff.1 hy)

/-- A key is as far from the lower buckets as from the key that they belong to. -/
theorem kIndex_distance_of_lt (hx : (l.distance x).kIndex = some i)
    (hy : (l.distance y).val.toNat < 2 ^ i) : (x.distance y).kIndex = some i := by
  rw [KBucketDistance.kIndex_eq_some_iff, toNat_distance_via x y l, distance_comm x l]
  exact (KBucketDistance.kIndex_eq_some_iff.1 hx).xor hy

/-- **The geometry of the buckets.**  The k-index is the integer part of the binary logarithm, and
only the key itself has none; keys of one bucket are nearer to each other than to the key; seen from
a key of the bucket, the lower buckets and the key are in the bucket with the same index; and the
distance is a metric. -/
theorem bucket_geometry (l x y : KBucketKey) :
    (∀ i, (l.distance x).kIndex = some i ↔
      2 ^ i ≤ (l.distance x).val.toNat ∧ (l.distance x).val.toNat < 2 ^ (i + 1)) ∧
    ((l.distance x).kIndex = none ↔ x = l) ∧
    (∀ i, (l.distance x).kIndex = some i → (l.distance y).kIndex = some i →
      (x.distance y).val.toNat < 2 ^ i) ∧
    (∀ i, (l.distance x).kIndex = some i → (y = l ∨ ∃ j < i, (l.distance y).kIndex = some j) →
      (x.distance y).kIndex = some i) ∧
    x.distance y = y.distance x ∧
    ∀ z : KBucketKey, (x.distance y).val.toNat ≤
      (x.distance z).val.toNat + (z.distance y).val.toNat := by
  refine ⟨fun i => KBucketDistance.kIndex_eq_some_iff, ?_, fun i => distance_lt_of_kIndex, ?_,
    distance_comm x y, distance_triangle x y⟩
  · rw [kIndex_distance_eq_none_iff]
    exact eq_comm
  · rintro i hx (rfl | ⟨j, hji, hy⟩)
    · rw [distance_comm]
      exact hx
    · exact kIndex_distance_of_lt hx ((KBucketDistance.kIndex_eq_some_iff.1 hy).lt_of_lt hji)

end KBucketKey

end XStack
