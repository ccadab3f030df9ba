import Mathlib.Data.Nat.Bitwise

/-!
# The exclusive or as a distance

Numbers are sorted into octaves by their highest bit; the octave `i` holds the numbers from `2 ^ i`
up to `2 ^ (i + 1)`.  As a distance the exclusive or looks at the highest differing bit first: two
numbers of the same octave are nearer to each other than the octave is to zero, and a number keeps
its octave when another one of a lower octave is added.

## Main definitions

* `Octave` : the octave of a number.

## Main results

* `octave_iff` : the octave by the bits of a number.
* `Octave.xor_lt`, `Octave.xor` : two numbers of the same octave, and of different ones.
* `xor_le_add` : the triangle inequality.
-/

namespace XStack

/-- The number is in the octave `i`. -/
def Octave (i x : ℕ) : Prop := 2 ^ i ≤ x ∧ x < 2 ^ (i + 1)

variable {i j x y : ℕ}

theorem lt_two_pow_iff : x < 2 ^ i ↔ ∀ k, i ≤ k → x.testBit k = false := by
  constructor
  · intro hlt k hk
    exact Nat.testBit_lt_two_pow (hlt.trans_le (Nat.pow_le_pow_right (by decide) hk))
  · exact Nat.lt_pow_two_of_testBit x

/-- The octave is the position of the highest bit. -/
theorem octave_iff : Octave i x ↔ x.testBit i = true ∧ ∀ k, i < k → x.testBit k = false := by
  constructor
  · rintro ⟨hle, hlt⟩
    exact ⟨Nat.testBit_of_two_pow_le_and_two_pow_add_one_gt hle hlt, lt_two_pow_iff.1 hlt⟩
  · rintro ⟨hbit, hhigh⟩
    exact ⟨Nat.ge_two_pow_of_testBit hbit, lt_two_pow_iff.2 hhigh⟩

theorem Octave.lt_of_lt (hx : Octave i x) (hlt : i < j) : x < 2 ^ j :=
  hx.2.trans_le (Nat.pow_le_pow_right (by decide) hlt)

theorem Octave.unique (hi : Octave i x) (hj : Octave j x) : i = j := by
  rcases Nat.lt_trichotomy i j with hlt | heq | hlt
  · exact absurd hj.1 (hi.lt_of_lt hlt).not_ge
  · exact heq
  · exact absurd hi.1 (hj.lt_of_lt hlt).not_ge

/-- In the same octave the highest bits cancel. -/
theorem Octave.xor_lt (hx : Octave i x) (hy : Octave i y) : x ^^^ y < 2 ^ i := by
  obtain ⟨hxbit, hxhigh⟩ := octave_iff.1 hx
  obtain ⟨hybit, hyhigh⟩ := octave_iff.1 hy
  rw [lt_two_pow_iff]
  intro k hk
  rw [Nat.testBit_xor]
  rcases Nat.eq_or_lt_of_le hk with rfl | hlt
  · rw [hxbit, hybit]
    rfl
  · rw [hxhigh k hlt, hyhigh k hlt]
    rfl

/-- What is below the octave does not reach the highest bit. -/
theorem Octave.xor (hx : Octave i x) (hy : y < 2 ^ i) : Octave i (x ^^^ y) := by
  obtain ⟨hxbit, hxhigh⟩ := octave_iff.1 hx
  have hylow := lt_two_pow_iff.1 hy
  rw [octave_iff]
  constructor
  · rw [Nat.testBit_xor, hxbit, hylow i le_rfl]
    rfl
  · intro k hk
    rw [Nat.testBit_xor, hxhigh k hk, hylow k hk.le]
    rfl

/-- Adding without the carries does not give more. -/
theorem xor_le_add (x y : ℕ) : x ^^^ y ≤ x + y := by
  -- the last digits of both sides differ by a carry only, and the rest is the same for the halves
  induction x using Nat.strongRecOn generalizing y with
  | ind x ih =>
    rcases Nat.eq_zero_or_pos x with rfl | hpos
    · simp
    have hhalf := ih (x / 2) (by omega) (y / 2)
    have hdiv : (x ^^^ y) / 2 = x / 2 ^^^ y / 2 := Nat.xor_div_two
    have hmod : (x ^^^ y) % 2 = (x + y) % 2 := Nat.xor_mod_two_eq
    omega

end XStack
