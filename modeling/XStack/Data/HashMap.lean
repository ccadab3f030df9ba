import Mathlib.Algebra.Ring.Nat
import Mathlib.Data.List.AList

/-!
# Hash maps

`HashMap K V` stands for `std::collections::HashMap`: a finite map with one entry for each key.
It is Mathlib's `AList` with a constant value type; `get` is the only way the rest of the
development looks inside, so every update is described by one lemma on `get`.

The order in which a hash map is traversed is not specified.  `iter` lists the entries in *some*
order; code whose result could depend on the traversal takes a `Shuffle` and is verified for all of
them (`XStack.Data.Random`).

## Main results

* `HashMap.get_insert`, `HashMap.get_remove` : the updates.
* `HashMap.get_foldl_insert`, `HashMap.get_foldl_remove` : the same for a loop over keys.
* `HashMap.mem_iter` : the traversal visits exactly the entries.
* `HashMap.elements_perm`, `HashMap.elements_insert` : the elements of the lists a map holds, when
  the list under one key is taken out or replaced.
* `HashMap.get_foldl_push` : a loop that groups values by their keys.
-/

namespace XStack

/-- A finite map from keys to values. -/
abbrev HashMap (K V : Type*) := AList fun _ : K => V

namespace HashMap

variable {K V : Type*} [DecidableEq K]

/-- The value stored under a key. -/
def get (m : HashMap K V) (k : K) : Option V := AList.lookup k m

/-- The map with `v` stored under `k`, in place of what was there. -/
def insert (m : HashMap K V) (k : K) (v : V) : HashMap K V := AList.insert k v m

/-- The map without the entry of `k`. -/
def remove (m : HashMap K V) (k : K) : HashMap K V := AList.erase k m

/-- `HashMap::contains_key`. -/
def containsKey (m : HashMap K V) (k : K) : Bool := (m.get k).isSome

omit [DecidableEq K] in
/-- The entries of the map, in some order. -/
def iter (m : HashMap K V) : List (K × V) := m.entries.map fun e => (e.1, e.2)

omit [DecidableEq K] in
/-- The number of entries. -/
def len (m : HashMap K V) : ℕ := m.entries.length

@[simp] theorem get_empty (k : K) : get (∅ : HashMap K V) k = none := AList.lookup_empty k

theorem get_insert (m : HashMap K V) (k k' : K) (v : V) :
    (m.insert k v).get k' = if k' = k then some v else m.get k' := by
  unfold get insert
  split_ifs with h
  · subst h; exact AList.lookup_insert m
  · exact AList.lookup_insert_ne h

theorem get_remove (m : HashMap K V) (k k' : K) :
    (m.remove k).get k' = if k' = k then none else m.get k' := by
  unfold get remove
  split_ifs with h
  · subst h; exact AList.lookup_erase k' m
  · exact AList.lookup_erase_ne h

@[simp] theorem get_insert_self (m : HashMap K V) (k : K) (v : V) :
    (m.insert k v).get k = some v := by simp [get_insert]

@[simp] theorem get_remove_self (m : HashMap K V) (k : K) : (m.remove k).get k = none := by
  simp [get_remove]

theorem get_insert_ne {m : HashMap K V} {k k' : K} {v : V} (h : k' ≠ k) :
    (m.insert k v).get k' = m.get k' := by simp [get_insert, h]

theorem get_remove_ne {m : HashMap K V} {k k' : K} (h : k' ≠ k) :
    (m.remove k).get k' = m.get k' := by simp [get_remove, h]

theorem get_of_get_remove {m : HashMap K V} {k k' : K} {v : V}
    (h : (m.remove k).get k' = some v) : k' ≠ k ∧ m.get k' = some v := by
  rw [get_remove] at h
  split_ifs at h with hk
  exact ⟨hk, h⟩

theorem get_foldl_insert (ks : List K) (m : HashMap K V) (v : V) (k : K) :
    (ks.foldl (fun m k => m.insert k v) m).get k = if k ∈ ks then some v else m.get k := by
  induction ks generalizing m with
  | nil => simp
  | cons k' ks ih =>
    rw [List.foldl_cons, ih, get_insert]
    by_cases h1 : k ∈ ks <;> by_cases h2 : k = k' <;> simp [h1, h2]

theorem get_foldl_remove (ks : List K) (m : HashMap K V) (k : K) :
    (ks.foldl remove m).get k = if k ∈ ks then none else m.get k := by
  induction ks generalizing m with
  | nil => simp
  | cons k' ks ih =>
    rw [List.foldl_cons, ih, get_remove]
    by_cases h1 : k ∈ ks <;> by_cases h2 : k = k' <;> simp [h1, h2]

theorem containsKey_iff {m : HashMap K V} {k : K} :
    m.containsKey k = true ↔ ∃ v, m.get k = some v := by
  simp [containsKey, Option.isSome_iff_exists]

theorem mem_iter {m : HashMap K V} {k : K} {v : V} : (k, v) ∈ m.iter ↔ m.get k = some v := by
  rw [get, ← Option.mem_def, AList.mem_lookup_iff, iter, List.mem_map]
  constructor
  · rintro ⟨⟨k', v'⟩, hmem, he⟩
    cases he
    exact hmem
  · intro h
    exact ⟨⟨k, v⟩, h, rfl⟩

omit [DecidableEq K] in
theorem nodup_iter (m : HashMap K V) : (m.iter.map Prod.fst).Nodup := by
  rw [iter, List.map_map]
  exact m.nodupKeys

/-- The traversal of a map in which the entry of `k` comes first. -/
theorem iter_perm {m : HashMap K V} {k : K} {v : V} (h : m.get k = some v) :
    m.iter.Perm ((k, v) :: (m.remove k).iter) := by
  have hentries : m.entries.Perm (⟨k, v⟩ :: (m.remove k).entries) := by
    refine List.lookup_ext m.nodupKeys (insert m k v).nodupKeys fun k' v' => ?_
    have hget : (m.insert k v).get k' = m.get k' := by
      rw [get_insert]
      split_ifs with hk
      · rw [hk, h]
      · rfl
    exact (congrArg (v' ∈ ·) hget).symm.to_iff
  exact hentries.map _

theorem iter_eq_singleton {m : HashMap K V} {k : K} {v : V} (h : m.get k = some v)
    (hother : ∀ k', k' ≠ k → m.get k' = none) : m.iter = [(k, v)] := by
  have hrest : (m.remove k).iter = [] := by
    refine List.eq_nil_iff_forall_not_mem.2 fun e hmem => ?_
    obtain ⟨hne, hget⟩ := get_of_get_remove (mem_iter.1 hmem)
    rw [hother _ hne] at hget
    cases hget
  have hperm := iter_perm h
  rw [hrest] at hperm
  exact List.perm_singleton.1 hperm

theorem iter_remove {m : HashMap K V} {k : K} (h : m.get k = none) :
    m.iter.Perm (m.remove k).iter := by
  have hentries : m.entries.Perm (m.remove k).entries := by
    refine List.lookup_ext m.nodupKeys (m.remove k).nodupKeys fun k' v' => ?_
    have hget : (m.remove k).get k' = m.get k' := by
      rw [get_remove]
      split_ifs with hk
      · rw [hk, h]
      · rfl
    exact (congrArg (v' ∈ ·) hget).symm.to_iff
  exact hentries.map _

theorem len_insert_of_none {m : HashMap K V} {k : K} (v : V) (h : m.get k = none) :
    (m.insert k v).len = m.len + 1 := by
  have hlen : m.entries.length = (m.remove k).entries.length := by
    simpa [iter] using (iter_remove h).length_eq
  exact congrArg (· + 1) hlen.symm

theorem len_insert_of_some {m : HashMap K V} {k : K} {v' : V} (v : V) (h : m.get k = some v') :
    (m.insert k v).len = m.len := by
  have hlen : m.entries.length = (m.remove k).entries.length + 1 := by
    simpa [iter] using (iter_perm h).length_eq
  exact hlen.symm

/-- The sum of the values, with the value under one key apart. -/
theorem sum_values (m : HashMap K ℕ) (k : K) :
    (m.iter.map Prod.snd).sum = (m.get k).getD 0 + ((m.remove k).iter.map Prod.snd).sum := by
  rcases hget : m.get k with _ | n
  · rw [((iter_remove hget).map Prod.snd).sum_nat, Option.getD_none, Nat.zero_add]
  · rw [((iter_perm hget).map Prod.snd).sum_nat, List.map_cons, List.sum_cons, Option.getD_some]

theorem sum_values_insert (m : HashMap K ℕ) (k : K) (n : ℕ) :
    ((m.insert k n).iter.map Prod.snd).sum = n + ((m.remove k).iter.map Prod.snd).sum := rfl

/-! ### Maps to lists -/

section Elements

variable {α β γ : Type*}

omit [DecidableEq K] in
/-- The elements of all the lists stored in a map, each put together with its key. -/
def elements (f : K → α → β) (m : HashMap K (List α)) : List β :=
  m.iter.flatMap fun e => e.2.map (f e.1)

omit [DecidableEq K] in
theorem map_elements (g : β → γ) (f : K → α → β) (m : HashMap K (List α)) :
    (m.elements f).map g = m.elements fun k x => g (f k x) := by
  simp [elements, List.map_flatMap, Function.comp_def]

theorem mem_elements {f : K → α → β} {m : HashMap K (List α)} {y : β} :
    y ∈ m.elements f ↔ ∃ k xs, m.get k = some xs ∧ ∃ x ∈ xs, f k x = y := by
  simp only [elements, List.mem_flatMap, List.mem_map, Prod.exists, mem_iter]

/-- The elements under one key, and the others. -/
theorem elements_perm (f : K → α → β) (m : HashMap K (List α)) (k : K) :
    (m.elements f).Perm (((m.get k).getD []).map (f k) ++ (m.remove k).elements f) := by
  rcases hget : m.get k with _ | xs
  · exact (iter_remove hget).flatMap_right _
  · exact (iter_perm hget).flatMap_right _

theorem elements_insert (f : K → α → β) (m : HashMap K (List α)) (k : K) (xs : List α) :
    (m.insert k xs).elements f = xs.map (f k) ++ (m.remove k).elements f := rfl

end Elements

/-! ### Grouping values by their keys -/

section Group

/-- Add a value to the list under its key. -/
def push (m : HashMap K (List V)) (e : K × V) : HashMap K (List V) :=
  m.insert e.1 ((m.get e.1).getD [] ++ [e.2])

/-- The values with the given key. -/
def valuesOf (k : K) (es : List (K × V)) : List V :=
  es.filterMap fun e => if e.1 = k then some e.2 else none

theorem valuesOf_cons_self (k : K) (v : V) (es : List (K × V)) :
    valuesOf k ((k, v) :: es) = v :: valuesOf k es := by
  simp [valuesOf]

theorem valuesOf_cons_ne {k k' : K} (h : k' ≠ k) (v : V) (es : List (K × V)) :
    valuesOf k ((k', v) :: es) = valuesOf k es := by
  simp [valuesOf, h]

theorem valuesOf_map_self (k : K) (vs : List V) : valuesOf k (vs.map fun v => (k, v)) = vs := by
  simp [valuesOf, List.filterMap_map]

theorem valuesOf_map_ne {k k' : K} (h : k' ≠ k) (vs : List V) :
    valuesOf k (vs.map fun v => (k', v)) = [] := by
  simp [valuesOf, List.filterMap_map, h]

theorem valuesOf_eq_nil_iff {k : K} {es : List (K × V)} :
    valuesOf k es = [] ↔ ∀ v, (k, v) ∉ es := by
  rw [valuesOf, List.filterMap_eq_nil_iff]
  constructor
  · intro h v hmem
    simpa using h (k, v) hmem
  · rintro h ⟨k', v⟩ hmem
    refine if_neg ?_
    rintro rfl
    exact h v hmem

theorem get_push (m : HashMap K (List V)) (e : K × V) (k : K) : (m.push e).get k =
    if k = e.1 then some ((m.get k).getD [] ++ [e.2]) else m.get k := by
  rw [push, get_insert]
  split_ifs with hk
  · rw [hk]
  · rfl

/-- **Grouping**: under a key there are the values that were there before, and behind them the
values with this key, in their order. -/
theorem get_foldl_push (es : List (K × V)) (m : HashMap K (List V)) (k : K) :
    (es.foldl push m).get k =
      if valuesOf k es = [] then m.get k else some ((m.get k).getD [] ++ valuesOf k es) := by
  induction es generalizing m with
  | nil => rfl
  | cons e es ih =>
    obtain ⟨k', v⟩ := e
    rw [List.foldl_cons, ih, get_push]
    by_cases hk : k' = k
    · subst hk
      rw [valuesOf_cons_self, if_pos rfl, if_neg (List.cons_ne_nil _ _), Option.getD_some]
      split_ifs with hnil
      · rw [hnil]
      · rw [List.append_assoc, List.singleton_append]
    · rw [valuesOf_cons_ne hk, if_neg (Ne.symm hk)]

theorem exists_get_foldl_push {es : List (K × V)} {m : HashMap K (List V)} {k : K} :
    (∃ vs, (es.foldl push m).get k = some vs) ↔
      (∃ vs, m.get k = some vs) ∨ ∃ v, (k, v) ∈ es := by
  rw [get_foldl_push]
  split_ifs with hnil
  · have hno : ¬ ∃ v, (k, v) ∈ es := not_exists.2 (valuesOf_eq_nil_iff.1 hnil)
    simp [hno]
  · have hyes : ∃ v, (k, v) ∈ es := by
      by_contra hno
      exact hnil (valuesOf_eq_nil_iff.2 (not_exists.1 hno))
    simp [hyes]

end Group

end HashMap

end XStack
