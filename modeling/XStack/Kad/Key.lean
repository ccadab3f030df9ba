import XStack.Basic
import Mathlib.Order.Nat
import Mathlib.Tactic.SplitIfs

/-!
# Keys and distances

`KBucketKey` is the SHA-256 digest of a peer id or of any other bytes, as a 256-bit number.  The
distance of two keys is their bitwise xor, and the k-index of a distance is the position of its
highest bit: the number of the bucket that a key at that distance belongs to.

The digest function is third-party code and is the only thing that stays abstract.
-/

namespace XStack

/-- `uint::U256`. -/
abbrev U256 := BitVec 256

/-- The digest function of the `sha2` crate. -/
class Sha256 where
  /-- The digest of some bytes, read as a big-endian number. -/
  digest : List UInt8 → U256

/-- `KBucketDistance`. -/
structure KBucketDistance where
  /-- The distance as a number. -/
  val : U256
  deriving DecidableEq, Repr

/-- `KBucketKey`. -/
structure KBucketKey where
  /-- The key as a number. -/
  val : U256
  deriving DecidableEq, Repr

/-- `usize::checked_sub`. -/
def checkedSub (a b : ℕ) : Option ℕ := if b ≤ a then some (a - b) else none

/-- `U256::leading_zeros`. -/
def U256.leadingZeros (x : U256) : ℕ := (BitVec.clz x).toNat

namespace KBucketDistance

/-- Distances are compared as numbers. -/
instance : LinearOrder KBucketDistance :=
  LinearOrder.lift' (fun d => d.val.toNat) fun a b h => by
    cases a; cases b
    exact congrArg KBucketDistance.mk (BitVec.eq_of_toNat_eq h)

/-- `KBucketDistance::k_index`. -/
def kIndex (d : KBucketDistance) : Option ℕ := checkedSub (256 - d.val.leadingZeros) 1

end KBucketDistance

namespace KBucketKey

/-- `KBucketKey::distance`. -/
def distance (key rhs : KBucketKey) : KBucketDistance := ⟨key.val ^^^ rhs.val⟩

variable [Sha256]

/-- `KBucketKey::from` on bytes. -/
def ofBytes (value : List UInt8) : KBucketKey := ⟨Sha256.digest value⟩

/-- `KBucketKey::from` on a peer id. -/
def ofPeerId (value : PeerId) : KBucketKey := ofBytes value.toBytes

end KBucketKey

/-! ### The geometry of the xor distance -/

theorem U256.leadingZeros_lt_iff {x : U256} : x.leadingZeros < 256 ↔ x ≠ 0#256 :=
  BitVec.clz_lt_iff_ne_zero (x := x)

theorem U256.leadingZeros_le (x : U256) : x.leadingZeros ≤ 256 := BitVec.clz_le (x := x)

namespace KBucketDistance

theorem kIndex_lt {d : KBucketDistance} {i : ℕ} (h : d.kIndex = some i) : i < 256 := by
  unfold kIndex checkedSub at h
  split_ifs at h with hb
  cases h
  omega

theorem kIndex_eq_none_iff {d : KBucketDistance} : d.kIndex = none ↔ d.val = 0#256 := by
  have hlt := U256.leadingZeros_lt_iff (x := d.val)
  have hle := d.val.leadingZeros_le
  unfold kIndex checkedSub
  split_ifs with h
  · have hne : d.val ≠ 0#256 := hlt.1 (by omega)
    simp [hne]
  · have heq : d.val = 0#256 := not_not.1 (mt hlt.2 (by omega))
    simp [heq]

end KBucketDistance

namespace KBucketKey

theorem distance_eq_zero_iff {a b : KBucketKey} : (a.distance b).val = 0#256 ↔ a = b := by
  cases a; cases b
  simp [distance, BitVec.xor_eq_zero_iff]

theorem kIndex_distance_eq_none_iff {a b : KBucketKey} : (a.distance b).kIndex = none ↔ a = b := by
  rw [KBucketDistance.kIndex_eq_none_iff, distance_eq_zero_iff]

end KBucketKey

end XStack
