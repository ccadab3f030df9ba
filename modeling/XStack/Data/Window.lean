import Mathlib.Data.List.DropRight

/-!
# Sliding windows

A buffer of bounded size that keeps the newest elements: before an element is added at the end, the
oldest one is dropped if the buffer is full.  The code that does this usually compares the length
with the bound for equality, so it relies on the buffer never being longer than the bound.

A window of size 0 is different: the buffer is full when it is empty, and then there is nothing to
drop.

## Main results

* `slide_eq_rtake` : a window of positive size consists of the last elements.
* `slide_zero` : a window of size 0 keeps everything.
* `foldl_slide_suffix` : whatever its size, a window ends with what has been added last.
-/

namespace XStack

variable {α : Type*}

/-- Add an element to a window of size `n`. -/
def slide (n : ℕ) (window : List α) (a : α) : List α :=
  (if window.length = n then window.tail else window) ++ [a]

/-- Adding an element to the last `n` elements of a list gives the last `n` elements of the longer
list. -/
theorem slide_rtake (n : ℕ) (l : List α) (a : α) :
    slide (n + 1) (l.rtake (n + 1)) a = (l ++ [a]).rtake (n + 1) := by
  rw [List.rtake_concat_succ, slide]
  unfold List.rtake
  rw [List.length_drop]
  split_ifs with hfull
  · have hdrop : l.length - n = l.length - (n + 1) + 1 := by omega
    rw [List.tail_drop, hdrop]
  · have hshort : l.length - (n + 1) = l.length - n := by omega
    rw [hshort]

/-- **A window of positive size consists of the last elements** of what has been added, in order. -/
theorem slide_eq_rtake {n : ℕ} (hn : n ≠ 0) (l xs : List α) :
    xs.foldl (slide n) (l.rtake n) = (l ++ xs).rtake n := by
  obtain ⟨n, rfl⟩ := Nat.exists_eq_succ_of_ne_zero hn
  induction xs generalizing l with
  | nil => simp
  | cons a xs ih => rw [List.foldl_cons, slide_rtake, ih, List.append_assoc, List.singleton_append]

theorem slide_zero (l xs : List α) : xs.foldl (slide 0) l = l ++ xs := by
  induction xs generalizing l with
  | nil => simp
  | cons a xs ih =>
    have hslide : slide 0 l a = l ++ [a] := by cases l <;> simp [slide]
    rw [List.foldl_cons, hslide, ih, List.append_assoc, List.singleton_append]

theorem foldl_slide_suffix (n : ℕ) (l xs : List α) : xs.foldl (slide n) l <:+ l ++ xs := by
  induction xs generalizing l with
  | nil =>
    rw [List.append_nil]
    exact List.suffix_rfl
  | cons a xs ih =>
    have hslide : slide n l a <:+ l ++ [a] := by
      unfold slide
      split_ifs
      · exact (List.suffix_append_inj_of_length_eq rfl).2 ⟨List.tail_suffix l, rfl⟩
      · exact List.suffix_rfl
    obtain ⟨dropped, hdropped⟩ := hslide
    rw [List.foldl_cons, ← List.singleton_append, ← List.append_assoc, ← hdropped,
      List.append_assoc]
    exact (ih _).trans (List.suffix_append dropped _)

end XStack
