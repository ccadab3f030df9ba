import Mathlib.Data.List.Basic

/-!
# Loops over a stream of results

`while let Some(x) = stream.try_next().await? { body(x) }` runs its body on the results that
succeed, and ends with the first one that fails.  `tryForEach` is this loop, on the results that
have arrived so far.

* `tryForEach_append` : how the loop goes on.
* `tryForEach_eq_oks_iff` : it runs its body on all the results that succeed, however many arrive,
  if and only if none succeeds after one has failed.
-/

namespace XStack

variable {ε α β : Type*}

/-- The results that succeed. -/
def oks (items : List (Except ε α)) : List α := items.filterMap Except.toOption

/-- The values that the loop body runs on, and the error that has ended the loop. -/
def tryForEach : List (Except ε α) → List α × Option ε
  | [] => ([], none)
  | .ok a :: items => ((tryForEach items).1.cons a, (tryForEach items).2)
  | .error e :: _ => ([], some e)

/-- The loop has ended if and only if a result has failed. -/
theorem isSome_tryForEach_snd_iff {items : List (Except ε α)} :
    (tryForEach items).2.isSome ↔ ∃ e, .error e ∈ items := by
  induction items with
  | nil => simp [tryForEach]
  | cons item items ih =>
    cases item with
    | ok a => simp [tryForEach, ih]
    | error e => exact ⟨fun _ => ⟨e, List.mem_cons_self⟩, fun _ => rfl⟩

/-- The loop goes on with what arrives later, unless it has ended. -/
theorem tryForEach_append (items items' : List (Except ε α)) :
    tryForEach (items ++ items') =
      if (tryForEach items).2.isSome then tryForEach items
      else ((tryForEach items).1 ++ (tryForEach items').1, (tryForEach items').2) := by
  induction items with
  | nil => simp [tryForEach]
  | cons item items ih =>
    cases item with
    | ok a =>
      simp only [List.cons_append, tryForEach, ih]
      by_cases hended : (tryForEach items).2.isSome <;> simp [hended]
    | error e => simp [tryForEach]

theorem oks_append (items items' : List (Except ε α)) :
    oks (items ++ items') = oks items ++ oks items' := List.filterMap_append

/-! ### Sequences that go on -/

/-- The first elements of a finite or infinite sequence. -/
def firstN (s : ℕ → Option α) (n : ℕ) : List α := (List.range n).filterMap s

theorem firstN_succ (s : ℕ → Option α) (n : ℕ) : firstN s (n + 1) = firstN s n ++ (s n).toList := by
  rw [firstN, List.range_succ, List.filterMap_append, firstN]
  cases h : s n <;> simp [h]

theorem mem_firstN {s : ℕ → Option α} {n : ℕ} {a : α} :
    a ∈ firstN s n ↔ ∃ i < n, s i = some a := by
  simp [firstN, List.mem_filterMap]

/-- **When the loop misses nothing**: its body runs on exactly the results that succeed, after any
number of them have arrived, if and only if no result succeeds after one has failed. -/
theorem tryForEach_eq_oks_iff {f : α → Except ε β} {s : ℕ → Option α} :
    (∀ n, (tryForEach ((firstN s n).map f)).1 = oks ((firstN s n).map f)) ↔
      ∀ i j a b, i < j → s i = some a → s j = some b → (∃ e, f a = .error e) →
        ∃ e, f b = .error e := by
  constructor
  · rintro hall i j a b hij ha hb ⟨e, hfa⟩
    cases hfb : f b with
    | error e' => exact ⟨e', rfl⟩
    | ok c =>
      -- the loop has ended before it comes to `b`
      exfalso
      have hended : (tryForEach ((firstN s j).map f)).2.isSome :=
        isSome_tryForEach_snd_iff.2 ⟨e, List.mem_map.2 ⟨a, mem_firstN.2 ⟨i, hij, ha⟩, hfa⟩⟩
      have hnext := hall (j + 1)
      have hmap : (firstN s (j + 1)).map f = (firstN s j).map f ++ [.ok c] := by
        rw [firstN_succ, hb, List.map_append]
        simp [hfb]
      rw [hmap, tryForEach_append, if_pos hended, oks_append, hall j] at hnext
      have hlen := congrArg List.length hnext
      simp [oks, Except.toOption] at hlen
  · intro hnone n
    induction n with
    | zero => rfl
    | succ n ih =>
      cases hn : s n with
      | none => rw [firstN_succ, hn, Option.toList_none, List.append_nil, ih]
      | some b =>
        have hmap : (firstN s (n + 1)).map f = (firstN s n).map f ++ [f b] := by
          rw [firstN_succ, hn, List.map_append]
          rfl
        rw [hmap, tryForEach_append, oks_append]
        split_ifs with hended
        · obtain ⟨e, he⟩ := isSome_tryForEach_snd_iff.1 hended
          obtain ⟨a, ha, hfa⟩ := List.mem_map.1 he
          obtain ⟨i, hi, ha⟩ := mem_firstN.1 ha
          obtain ⟨e', hfb⟩ := hnone i n a b hi ha hn ⟨e, hfa⟩
          rw [ih, hfb]
          simp [oks, Except.toOption]
        · rw [ih]
          cases hfb : f b <;> simp [tryForEach, oks, Except.toOption]

end XStack
