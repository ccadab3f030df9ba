import Mathlib.Algebra.Ring.Nat
import XStack.Data.ByteStream

/-!
# Unsigned varints

A number is written seven bits a byte, least significant first; the last byte is the only one whose
high bit is not set, and is not zero unless it is the only one.  `readUsize` reads a number from a
stream one byte at a time and takes no other byte off it.

## Main results

* `Varint.readLoop_encode` : reading undoes encoding.
* `Varint.readLoop_same` : reading does not depend on the chunks.
-/

namespace XStack

namespace Varint

/-- The errors of reading a number. -/
structure Errors (ε : Type*) where
  /-- The stream is closed within the number. -/
  eof : ε
  /-- The number has too many bytes. -/
  overflow : ε
  /-- The last byte is a zero that is not needed. -/
  notMinimal : ε

/-- A number in at most `k` bytes. -/
def encode : ℕ → ℕ → List UInt8
  | 0, _ => []
  | k + 1, n =>
    if n < 128 then [.ofNat n] else .ofNat (n % 128 + 128) :: encode k (n / 128)

variable {ε : Type*}

/-- Read a number of at most `k` bytes; `first` tells if this is its first byte. -/
def readLoop (errors : Errors ε) : ℕ → Bool → ByteStream ε → Except ε ℕ × ByteStream ε
  | 0, _, s => (.error errors.overflow, s)
  | k + 1, first, s =>
    match s.read 1 with
    | (.error e, s) => (.error e, s)
    | (.ok [], s) => (.error errors.eof, s)
    | (.ok (b :: _), s) =>
      if b.toNat < 128 then
        if b.toNat = 0 ∧ first = false then (.error errors.notMinimal, s) else (.ok b.toNat, s)
      else
        match readLoop errors k false s with
        | (.ok n, s) => (.ok (b.toNat - 128 + 128 * n), s)
        | (.error e, s) => (.error e, s)

variable (errors : Errors ε) {s t : ByteStream ε}

theorem readLoop_last {b : UInt8} {rest : List UInt8} (h : s.bytes = b :: rest)
    (hb : b.toNat < 128) (k : ℕ) (first : Bool) (hfirst : first = true ∨ b.toNat ≠ 0) :
    ∃ s', readLoop errors (k + 1) first s = (.ok b.toNat, s') ∧ s'.bytes = rest ∧
      s'.failure = s.failure := by
  obtain ⟨s', hread, hbytes, hfail⟩ := ByteStream.read_one_cons h
  refine ⟨s', ?_, hbytes, hfail⟩
  have hminimal : ¬ (b.toNat = 0 ∧ first = false) := by
    rcases hfirst with rfl | hne
    · simp
    · exact fun hzero => hne hzero.1
  rw [readLoop, hread]
  dsimp only
  rw [if_pos hb, if_neg hminimal]

theorem readLoop_more {b : UInt8} {rest : List UInt8} (h : s.bytes = b :: rest)
    (hb : ¬ b.toNat < 128) (k : ℕ) (first : Bool) :
    ∃ s', s'.bytes = rest ∧ s'.failure = s.failure ∧
      readLoop errors (k + 1) first s =
        ((readLoop errors k false s').1.map (b.toNat - 128 + 128 * ·),
          (readLoop errors k false s').2) := by
  obtain ⟨s', hread, hbytes, hfail⟩ := ByteStream.read_one_cons h
  refine ⟨s', hbytes, hfail, ?_⟩
  rw [readLoop, hread]
  dsimp only
  rw [if_neg hb]
  rcases readLoop errors k false s' with ⟨e | n, s''⟩ <;> rfl

theorem readLoop_nil (h : s.bytes = []) (k : ℕ) (first : Bool) :
    readLoop errors (k + 1) first s = (.error (s.failure.getD errors.eof), s) := by
  rw [readLoop, ByteStream.read_one_nil h]
  rcases s.failure with _ | e <;> rfl

/-- **Reading undoes encoding**, and takes the encoding off the stream. -/
theorem readLoop_encode {k n : ℕ} (hn : n < 128 ^ (k + 1)) {first : Bool}
    (hfirst : first = true ∨ n ≠ 0) {rest : List UInt8}
    (h : s.bytes = encode (k + 1) n ++ rest) :
    ∃ s', readLoop errors (k + 1) first s = (.ok n, s') ∧ s'.bytes = rest ∧
      s'.failure = s.failure := by
  induction k generalizing n first s with
  | zero =>
    have hb : (UInt8.ofNat n).toNat = n := by
      rw [UInt8.toNat_ofNat']
      omega
    rw [encode, if_pos (by simpa using hn)] at h
    have hlast := readLoop_last errors h (by rw [hb]; simpa using hn) 0 first (by rwa [hb])
    rwa [hb] at hlast
  | succ k ih =>
    rw [encode] at h
    split_ifs at h with hlast
    · have hb : (UInt8.ofNat n).toNat = n := by
        rw [UInt8.toNat_ofNat']
        omega
      have hread := readLoop_last errors h (by rwa [hb]) (k + 1) first (by rwa [hb])
      rwa [hb] at hread
    · -- the seven lowest bits come first, with the bit that says that more follow
      have hb : (UInt8.ofNat (n % 128 + 128)).toNat = n % 128 + 128 := by
        rw [UInt8.toNat_ofNat']
        omega
      obtain ⟨s₁, hbytes, hfail, hloop⟩ :=
        readLoop_more errors h (by omega) (k + 1) first
      have hdiv : n / 128 < 128 ^ (k + 1) := by
        rw [pow_succ] at hn
        omega
      obtain ⟨s', hread, hrest, hfail'⟩ := ih hdiv (.inr (by omega)) hbytes
      refine ⟨s', ?_, hrest, hfail'.trans hfail⟩
      rw [hloop, hread, hb]
      simp only [Except.map, Prod.mk.injEq, Except.ok.injEq, and_true]
      omega

/-- **A stream that ends within a number** is an error. -/
theorem readLoop_short {k n : ℕ} (hs : s.bytes <+: encode k n) (hne : s.bytes ≠ encode k n)
    (first : Bool) : ∃ e s', readLoop errors k first s = (.error e, s') := by
  induction k generalizing n s first with
  | zero => exact absurd (List.prefix_nil.1 hs) hne
  | succ k ih =>
    rcases hbytes : s.bytes with _ | ⟨b, rest⟩
    · exact ⟨_, _, readLoop_nil errors hbytes k first⟩
    · rw [hbytes, encode] at hs hne
      split_ifs at hs hne with hlast
      · obtain ⟨rfl, hrest⟩ := List.cons_prefix_cons.1 hs
        exact absurd (by rw [List.prefix_nil.1 hrest]) hne
      · obtain ⟨rfl, hrest⟩ := List.cons_prefix_cons.1 hs
        have hb : (UInt8.ofNat (n % 128 + 128)).toNat = n % 128 + 128 := by
          rw [UInt8.toNat_ofNat']
          omega
        obtain ⟨s₁, hs₁, -, hloop⟩ := readLoop_more errors hbytes (by omega) k first
        subst hs₁
        obtain ⟨e, s', he⟩ := ih hrest (fun heq => hne (by rw [heq])) false
        exact ⟨e, s', by rw [hloop, he]; rfl⟩

theorem readLoop_same (h : s.Same t) (k : ℕ) (first : Bool) :
    (readLoop errors k first s).1 = (readLoop errors k first t).1 ∧
      (readLoop errors k first s).2.Same (readLoop errors k first t).2 := by
  induction k generalizing first s t with
  | zero => exact ⟨rfl, h⟩
  | succ k ih =>
    rcases hs : s.bytes with _ | ⟨b, rest⟩
    · rw [readLoop_nil errors hs, readLoop_nil errors (h.bytes ▸ hs), h.failure]
      exact ⟨rfl, h⟩
    · have ht : t.bytes = b :: rest := h.bytes ▸ hs
      obtain ⟨s', hread, hbytes, hfail⟩ := ByteStream.read_one_cons hs
      obtain ⟨t', hread', hbytes', hfail'⟩ := ByteStream.read_one_cons ht
      have hsame : s'.Same t' :=
        ⟨hbytes.trans hbytes'.symm, hfail.trans (h.failure.trans hfail'.symm)⟩
      rw [readLoop, readLoop, hread, hread']
      dsimp only
      split_ifs
      · exact ⟨rfl, hsame⟩
      · exact ⟨rfl, hsame⟩
      · obtain ⟨hvalue, hrest⟩ := ih hsame false
        rcases hr : readLoop errors k false s' with ⟨r, s''⟩
        rcases hr' : readLoop errors k false t' with ⟨r', t''⟩
        rw [hr, hr'] at hvalue hrest
        obtain rfl : r = r' := hvalue
        rcases r with e | n <;> exact ⟨rfl, hrest⟩

end Varint

end XStack
