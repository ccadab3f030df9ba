import Mathlib.Data.List.Nodup

/-!
# Bounded lists ordered by recency

A list of at most `n` distinct elements in which the least recently used one comes first, and a
family of such lists that divides the elements among the indices of an index type.  Both are
structures that carry their well-formedness, so that the operations cannot break it.

An element is *offered* to such a list.  If it is listed already it becomes the most recent one; if
there is room it is added; if there is none, the least recently used element makes way, and whoever
offered is told which one it was.  The offered element is not added in that case.

## Main definitions

* `Recency α n`, with `touch`, `push`, `pop` and `offer`.
* `Buckets place n` : one list for each index; `place a` is the index of the list `a` belongs to.

## Main results

* `Recency.offer_cases` : the three outcomes of `offer`.
* `Buckets.offer_self`, `Buckets.offer_ne` : `offer` changes the list of one index only.
-/

namespace XStack

/-- At most `n` distinct elements, the least recently used one first. -/
@[ext] structure Recency (α : Type*) (n : ℕ) where
  /-- The elements. -/
  items : List α
  /-- No element is listed twice. -/
  nodup : items.Nodup
  /-- There are at most `n` elements. -/
  length_le : items.length ≤ n

namespace Recency

variable {α : Type*} {n : ℕ}

/-- The empty list. -/
def empty : Recency α n := ⟨[], List.nodup_nil, Nat.zero_le n⟩

/-- Drop the least recently used element. -/
def pop (r : Recency α n) : Recency α n where
  items := r.items.tail
  nodup := r.nodup.tail
  length_le := by have := r.length_le; rw [List.length_tail]; omega

@[simp] theorem pop_items (r : Recency α n) : r.pop.items = r.items.tail := rfl

/-- Add a new element as the most recent one. -/
def push (r : Recency α n) (a : α) (ha : a ∉ r.items) (hn : r.items.length < n) :
    Recency α n where
  items := r.items ++ [a]
  nodup := by simpa using r.nodup.concat ha
  length_le := by rw [List.length_append]; exact hn

@[simp] theorem push_items (r : Recency α n) {a : α} (ha : a ∉ r.items)
    (hn : r.items.length < n) : (r.push a ha hn).items = r.items ++ [a] := rfl

variable [DecidableEq α]

theorem erase_append_perm {l : List α} {a : α} (ha : a ∈ l) : (l.erase a ++ [a]).Perm l :=
  (List.perm_append_singleton a _).trans (List.perm_cons_erase ha).symm

/-- Make a listed element the most recent one. -/
def touch (r : Recency α n) (a : α) (ha : a ∈ r.items) : Recency α n where
  items := r.items.erase a ++ [a]
  nodup := (erase_append_perm ha).nodup_iff.2 r.nodup
  length_le := (erase_append_perm ha).length_eq ▸ r.length_le

theorem touch_perm (r : Recency α n) {a : α} (ha : a ∈ r.items) :
    (r.touch a ha).items.Perm r.items := erase_append_perm ha

/-- Offer an element, and report `a` itself if it is listed already, or the element that made way
for it. -/
def offer (r : Recency α n) (a : α) : Option α × Recency α n :=
  if ha : a ∈ r.items then (some a, r.touch a ha)
  else if hn : r.items.length < n then (none, r.push a ha hn)
  else (r.items.head?, r.pop)

theorem offer_of_mem {r : Recency α n} {a : α} (ha : a ∈ r.items) :
    r.offer a = (some a, r.touch a ha) := dif_pos ha

theorem offer_of_room {r : Recency α n} {a : α} (ha : a ∉ r.items) (hn : r.items.length < n) :
    r.offer a = (none, r.push a ha hn) := by rw [offer, dif_neg ha, dif_pos hn]

theorem offer_of_full {r : Recency α n} {a lru : α} {rest : List α} (ha : a ∉ r.items)
    (hr : r.items = lru :: rest) (hn : r.items.length = n) : r.offer a = (some lru, r.pop) := by
  rw [offer, dif_neg ha, dif_neg (by omega), hr]
  rfl

/-- **The outcomes of `offer`**: the element is listed and becomes the most recent one, or it is
added, or the list is full and loses its least recently used element. -/
theorem offer_cases (hn : 0 < n) (r : Recency α n) (a : α) :
    (∃ ha : a ∈ r.items, r.offer a = (some a, r.touch a ha)) ∨
    (∃ (ha : a ∉ r.items) (hr : r.items.length < n), r.offer a = (none, r.push a ha hr)) ∨
    (a ∉ r.items ∧ r.items.length = n ∧
      ∃ lru rest, r.items = lru :: rest ∧ r.offer a = (some lru, r.pop)) := by
  have hle := r.length_le
  by_cases ha : a ∈ r.items
  · exact .inl ⟨ha, offer_of_mem ha⟩
  · rcases Nat.lt_or_eq_of_le hle with hr | hr
    · exact .inr (.inl ⟨ha, hr, offer_of_room ha hr⟩)
    · obtain ⟨lru, rest, hl⟩ := List.exists_cons_of_length_pos (hr ▸ hn)
      exact .inr (.inr ⟨ha, hr, lru, rest, hl, offer_of_full ha hl hr⟩)

theorem mem_of_mem_offer {r : Recency α n} {a b : α} (hb : b ∈ (r.offer a).2.items) :
    b = a ∨ b ∈ r.items := by
  unfold offer at hb
  split_ifs at hb with ha hn
  · exact .inr ((r.touch_perm ha).mem_iff.1 hb)
  · rcases List.mem_append.1 hb with hold | hnew
    · exact .inr hold
    · exact .inl (List.mem_singleton.1 hnew)
  · exact .inr (List.mem_of_mem_tail hb)

theorem mem_of_offer {r : Recency α n} {a b : α} (h : (r.offer a).1 = some b) : b ∈ r.items := by
  unfold offer at h
  split_ifs at h with ha hn
  · cases h
    exact ha
  · exact List.mem_of_head? h

end Recency

/-- A family of recency lists.  `place a` is the index of the only list that may hold `a`. -/
@[ext] structure Buckets {α ι : Type*} (place : α → Option ι) (n : ℕ) where
  /-- The list of an index. -/
  bucket : ι → Recency α n
  /-- Every element is in its own list. -/
  own : ∀ i, ∀ a ∈ (bucket i).items, place a = some i

namespace Buckets

variable {α ι : Type*} {place : α → Option ι} {n : ℕ}

theorem eq_of_mem (T : Buckets place n) {i j : ι} {a : α} (hi : a ∈ (T.bucket i).items)
    (hj : a ∈ (T.bucket j).items) : i = j := by
  have h := (T.own i a hi).symm.trans (T.own j a hj)
  exact Option.some.inj h

variable [DecidableEq α] [DecidableEq ι]

/-- Offer an element to its list. -/
def offer (T : Buckets place n) {i : ι} (a : α) (hi : place a = some i) :
    Option α × Buckets place n where
  fst := ((T.bucket i).offer a).1
  snd :=
    { bucket := Function.update T.bucket i ((T.bucket i).offer a).2
      own j b hb := by
        rcases eq_or_ne j i with rfl | hj
        · rw [Function.update_self] at hb
          rcases Recency.mem_of_mem_offer hb with rfl | hb
          · exact hi
          · exact T.own j b hb
        · rw [Function.update_of_ne hj] at hb
          exact T.own j b hb }

variable (T : Buckets place n) {i : ι} {a : α} (hi : place a = some i)

@[simp] theorem offer_fst : (T.offer a hi).1 = ((T.bucket i).offer a).1 := rfl

@[simp] theorem offer_self : (T.offer a hi).2.bucket i = ((T.bucket i).offer a).2 :=
  Function.update_self ..

/-- An offer reports an element of the list that it is made to. -/
theorem place_of_offer {b : α} (h : (T.offer a hi).1 = some b) : place b = some i :=
  T.own i b (Recency.mem_of_offer h)

theorem offer_ne {j : ι} (hj : j ≠ i) : (T.offer a hi).2.bucket j = T.bucket j :=
  Function.update_of_ne hj ..

end Buckets

end XStack
