import Mathlib.Data.List.Nodup
import Mathlib.Order.Lattice
import Mathlib.Data.List.Perm.Basic

/-!
# Bounded scans

A scan visits the lists of a family one after the other and stops when it has collected `k`
elements.  What it has collected is the beginning of the lists, put together in the order of the
visits.  From which lists it takes how many elements depends on the sizes of the lists that are
visited before, `before R order j`.

The order of a search that starts at `i` and goes down and up in turn is `zigzag n i`.

## Main results

* `zigzag_perm` : such a search visits every number once.
* `mem_take_flatMap_iff` : what a scan takes from one of the lists.
* `scan_least_iff` : when a scan takes the elements with the least values of a function.
-/

namespace XStack

/-! ### The order of the search -/

/-- The numbers below `n` at the given distance from `i`, the lower one first. -/
def around (n i step : ℕ) : List ℕ :=
  (if step ≤ i then [i - step] else []) ++ if i + step < n then [i + step] else []

/-- The numbers below `n`, ordered by their distance from `i`. -/
def zigzag (n i : ℕ) : List ℕ := i :: (List.range' 1 (n - 1)).flatMap (around n i)

variable {n i j step : ℕ}

theorem mem_around : j ∈ around n i step ↔ j + step = i ∨ j = i + step ∧ j < n := by
  unfold around
  split_ifs <;> simp <;> omega

theorem nodup_around (hstep : 0 < step) : (around n i step).Nodup := by
  unfold around
  split_ifs <;> simp
  omega

theorem around_eq_nil (hlow : i < step) (hhigh : n ≤ i + step) : around n i step = [] := by
  rw [around, if_neg (Nat.not_le.2 hlow), if_neg (Nat.not_lt.2 hhigh)]
  rfl

theorem mem_zigzag (hi : i < n) : j ∈ zigzag n i ↔ j < n := by
  simp only [zigzag, List.mem_cons, List.mem_flatMap, List.mem_range'_1, mem_around]
  constructor
  · rintro (rfl | ⟨step, hstep, h | h⟩) <;> omega
  · intro hj
    rcases Nat.lt_trichotomy j i with hlt | rfl | hgt
    · exact .inr ⟨i - j, by omega, by omega⟩
    · exact .inl rfl
    · exact .inr ⟨j - i, by omega, by omega⟩

theorem nodup_zigzag : (zigzag n i).Nodup := by
  refine List.nodup_cons.2 ⟨?_, List.nodup_flatMap.2 ⟨fun step hstep => ?_, ?_⟩⟩
  · simp only [List.mem_flatMap, List.mem_range'_1, mem_around, not_exists, not_and]
    omega
  · exact nodup_around (List.mem_range'_1.1 hstep).1
  · refine (List.nodup_range' 1 Nat.one_pos).imp fun {step step'} hne j hj hj' => ?_
    rw [mem_around] at hj hj'
    omega

/-- **The search visits every number once.** -/
theorem zigzag_perm (hi : i < n) : (zigzag n i).Perm (List.range n) :=
  (List.perm_ext_iff_of_nodup nodup_zigzag List.nodup_range).2 fun j => by
    rw [mem_zigzag hi, List.mem_range]

theorem flatMap_range_getElem? {α γ : Type*} (l : List γ) (f : γ → List α) :
    (List.range l.length).flatMap (fun i => (l[i]?.map f).getD []) = l.flatMap f := by
  induction l with
  | nil => rfl
  | cons a l ih =>
    rw [List.length_cons, List.range_succ_eq_map, List.flatMap_cons, List.flatMap_map,
      List.flatMap_cons, ← ih]
    simp

/-! ### What a scan takes -/

variable {J α β : Type*} [DecidableEq J] {R : J → List α} {order : List J} {j j' : J} {x y : α}
  {k : ℕ}

/-- The number of elements of the lists that are visited before `j`. -/
def before (R : J → List α) (order : List J) (j : J) : ℕ :=
  ((order.takeWhile (· ≠ j)).flatMap R).length

theorem exists_split (hj : j ∈ order) : ∃ post, order = order.takeWhile (· ≠ j) ++ j :: post := by
  induction order with
  | nil => cases hj
  | cons j' order ih =>
    by_cases he : j' = j
    · exact ⟨order, by simp [he]⟩
    · obtain ⟨post, hpost⟩ := ih ((List.mem_cons.1 hj).resolve_left (Ne.symm he))
      exact ⟨post, by simpa [he] using hpost⟩

/-- **What a scan takes from one of the lists**: its beginning, as far as the lists before leave
room. -/
theorem mem_take_flatMap_iff (hnodup : (order.flatMap R).Nodup) (hj : j ∈ order) (hx : x ∈ R j) :
    x ∈ (order.flatMap R).take k ↔ x ∈ (R j).take (k - before R order j) := by
  obtain ⟨post, horder⟩ := exists_split hj
  have hsplit : order.flatMap R =
      (order.takeWhile (· ≠ j)).flatMap R ++ (R j ++ post.flatMap R) := by
    conv_lhs => rw [horder]
    rw [List.flatMap_append, List.flatMap_cons]
  rw [hsplit] at hnodup
  obtain ⟨-, hrest, hdisjoint⟩ := List.nodup_append'.1 hnodup
  have hpre : x ∉ (order.takeWhile (· ≠ j)).flatMap R := fun hmem =>
    hdisjoint hmem (List.mem_append_left _ hx)
  have hpost : x ∉ post.flatMap R := fun hmem => (List.nodup_append'.1 hrest).2.2 hx hmem
  rw [hsplit, List.take_append, List.take_append, List.mem_append, List.mem_append]
  constructor
  · rintro (hmem | hmem | hmem)
    · exact absurd (List.mem_of_mem_take hmem) hpre
    · exact hmem
    · exact absurd (List.mem_of_mem_take hmem) hpost
  · exact fun hmem => .inr (.inl hmem)

/-- What it leaves of the list is the rest. -/
theorem not_mem_take_flatMap_iff (hnodup : (order.flatMap R).Nodup) (hj : j ∈ order)
    (hx : x ∈ R j) :
    x ∉ (order.flatMap R).take k ↔ x ∈ (R j).drop (k - before R order j) := by
  rw [mem_take_flatMap_iff hnodup hj hx]
  have hlist : (R j).Nodup := (List.nodup_flatMap.1 hnodup).1 j hj
  rw [← List.take_append_drop (k - before R order j) (R j)] at hlist hx
  constructor
  · exact fun hmem => (List.mem_append.1 hx).resolve_left hmem
  · exact fun hmem htake => (List.nodup_append'.1 hlist).2.2 htake hmem

/-- **When a scan takes the elements with the least values.**  No element that it leaves has a
smaller value than one that it takes, if and only if this holds of what it takes from each list and
what it leaves of each list. -/
theorem scan_least_iff [LinearOrder β] {f : α → β} (hnodup : (order.flatMap R).Nodup) :
    (∀ x ∈ order.flatMap R, x ∉ (order.flatMap R).take k →
      ∀ y ∈ (order.flatMap R).take k, ¬ f x < f y) ↔
    ∀ j ∈ order, ∀ j' ∈ order, ∀ y ∈ (R j).take (k - before R order j),
      ∀ x ∈ (R j').drop (k - before R order j'), f y ≤ f x := by
  constructor
  · intro hleast j hj j' hj' y hy x hx
    have hx' := List.mem_of_mem_drop hx
    refine not_lt.1 (hleast x (List.mem_flatMap.2 ⟨j', hj', hx'⟩) ?_ y ?_)
    · exact (not_mem_take_flatMap_iff hnodup hj' hx').2 hx
    · exact (mem_take_flatMap_iff hnodup hj (List.mem_of_mem_take hy)).2 hy
  · intro hlists x hx hleft y hy
    obtain ⟨j', hj', hx'⟩ := List.mem_flatMap.1 hx
    obtain ⟨j, hj, hy'⟩ := List.mem_flatMap.1 (List.mem_of_mem_take hy)
    exact not_lt.2 (hlists j hj j' hj' y ((mem_take_flatMap_iff hnodup hj hy').1 hy) x
      ((not_mem_take_flatMap_iff hnodup hj' hx').1 hleft))

end XStack
