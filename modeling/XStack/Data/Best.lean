import Mathlib.Data.List.Sort

/-!
# The best `k` elements of a list

`best f k l` holds the `k` elements of `l` with the least value of `f`, in ascending order.  It is
how a search keeps a bounded number of results: a new one is appended and the best `k` are kept.
An element that is left out is *beaten*: the list is full, and none of its elements is worse.  Once
beaten an element stays beaten, whatever is added.

## Main results

* `pairwise_best`, `length_best_le`, `nodup_best`, `mem_of_mem_best` : the shape of the list.
* `mem_best_or_beaten` : an element of `l` is among the best or beaten.
* `Beaten.concat` : an element that is beaten stays beaten.
* `beaten_iff_getLast?` : it is enough to look at the last element.
-/

namespace XStack

variable {α β : Type*} [LinearOrder β] (f : α → β) {k : ℕ} {l : List α} {a : α}

/-- The `k` elements with the least value, in ascending order. -/
def best (k : ℕ) (l : List α) : List α := (l.insertionSort fun a b => f a ≤ f b).take k

/-- The list is full and has no element that is worse than `a`. -/
def Beaten (k : ℕ) (l : List α) (a : α) : Prop := l.length = k ∧ ∀ b ∈ l, f b ≤ f a

theorem pairwise_sorted (l : List α) :
    (l.insertionSort fun a b => f a ≤ f b).Pairwise fun a b => f a ≤ f b :=
  have : Std.Total fun a b : α => f a ≤ f b := ⟨fun a b => le_total (f a) (f b)⟩
  have : IsTrans α fun a b => f a ≤ f b := ⟨fun _ _ _ => le_trans⟩
  List.pairwise_insertionSort _ l

theorem pairwise_best (k : ℕ) (l : List α) : (best f k l).Pairwise fun a b => f a ≤ f b :=
  (pairwise_sorted f l).sublist (List.take_sublist ..)

theorem length_best_le (k : ℕ) (l : List α) : (best f k l).length ≤ k := List.length_take_le ..

theorem mem_of_mem_best (ha : a ∈ best f k l) : a ∈ l :=
  (List.mem_insertionSort _).1 (List.mem_of_mem_take ha)

theorem nodup_best (hl : l.Nodup) : (best f k l).Nodup :=
  ((List.perm_insertionSort _ l).nodup_iff.2 hl).sublist (List.take_sublist ..)

/-- The sorted list, cut after the best `k` elements: what is cut off is not better. -/
theorem exists_best_append (k : ℕ) (l : List α) :
    ∃ rest, (best f k l ++ rest).Perm l ∧ ∀ b ∈ best f k l, ∀ c ∈ rest, f b ≤ f c := by
  refine ⟨(l.insertionSort fun a b => f a ≤ f b).drop k, ?_, ?_⟩
  · rw [best, List.take_append_drop]
    exact List.perm_insertionSort ..
  · have hsort := pairwise_sorted f l
    rw [← List.take_append_drop k (l.insertionSort _), List.pairwise_append] at hsort
    exact hsort.2.2

theorem mem_best_or_beaten (k : ℕ) (ha : a ∈ l) :
    a ∈ best f k l ∨ Beaten f k (best f k l) a := by
  obtain ⟨rest, hperm, hle⟩ := exists_best_append f k l
  rcases List.mem_append.1 (hperm.mem_iff.2 ha) with hbest | hrest
  · exact .inl hbest
  · refine .inr ⟨?_, fun b hb => hle b hb a hrest⟩
    have hlen := hperm.length_eq
    have hpos := List.length_pos_of_mem hrest
    rw [List.length_append] at hlen
    rw [best, List.length_take, List.length_insertionSort, Nat.min_def]
    split_ifs with hk
    · rfl
    · -- a list that is not longer than `k` is kept as a whole
      have hall : (best f k l).length = l.length := by
        rw [best, List.length_take, List.length_insertionSort]
        omega
      omega

/-- **Once beaten, always beaten**: adding an element and keeping the best `k` does not help. -/
theorem Beaten.concat (h : Beaten f k l a) (b : α) : Beaten f k (best f k (l ++ [b])) a := by
  obtain ⟨hlen, hle⟩ := h
  obtain ⟨rest, hperm, hrest⟩ := exists_best_append f k (l ++ [b])
  have hbest : (best f k (l ++ [b])).length = k := by
    rw [best, List.length_take, List.length_insertionSort, List.length_append, hlen,
      List.length_singleton]
    omega
  refine ⟨hbest, ?_⟩
  intro c hc
  -- exactly one element is cut off
  have hone : rest.length = 1 := by
    have := hperm.length_eq
    rw [List.length_append, List.length_append, hbest, hlen, List.length_singleton] at this
    omega
  obtain ⟨d, rfl⟩ := List.length_eq_one_iff.1 hone
  have hcd : f c ≤ f d := hrest c hc d (List.mem_singleton_self d)
  have hd : d ∈ l ++ [b] := hperm.mem_iff.1 (List.mem_append_right _ (List.mem_singleton_self d))
  rcases List.mem_append.1 hd with hold | hnew
  · exact hcd.trans (hle d hold)
  · -- it is the new one, so the others are kept
    rw [List.mem_singleton.1 hnew] at hperm
    exact hle c (((List.perm_append_right_iff [b]).1 hperm).mem_iff.1 hc)

/-- In a sorted list the last element is the worst. -/
theorem beaten_iff_getLast? (hk : 0 < k) (hl : l.Pairwise fun a b => f a ≤ f b) :
    Beaten f k l a ↔ l.length = k ∧ ∃ last, l.getLast? = some last ∧ f last ≤ f a := by
  refine and_congr_right ?_
  intro hlen
  have hne : l ≠ [] := List.ne_nil_of_length_pos (by omega)
  rw [List.getLast?_eq_getLast_of_ne_nil hne]
  constructor
  · exact fun hle => ⟨_, rfl, hle _ (List.getLast_mem hne)⟩
  · rintro ⟨last, hlast, hle⟩ b hb
    cases hlast
    rw [← List.dropLast_append_getLast hne] at hb hl
    rcases List.mem_append.1 hb with hinit | hlast
    · exact ((List.pairwise_append.1 hl).2.2 b hinit _ (List.mem_singleton_self _)).trans hle
    · rw [List.mem_singleton.1 hlast]
      exact hle

end XStack
