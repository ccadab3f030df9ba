import XStack.Data.HashMap

/-!
# Secondary indices

A table `m : HashMap K V` is often accompanied by a second map that lists, for each value of some
attribute `key : V → J`, the primary keys of the entries with that attribute.  The two maps are
updated separately, so that their agreement is an invariant of the code and not of the data
structure.  `IsIndex key m idx` is that invariant; this file shows that the two updates code
usually makes by hand — append a key to its list, take a key out of its list and drop the list when
it becomes empty — preserve it.

Where an entry has several attributes and only one entry is kept for an attribute, the one that
claimed it last, the second map is a reverse index.  It is sound (`IsReverse`) if what it finds has
the attribute; the updates that release the attributes of the old entry and claim those of the new
one preserve this, although a release may take an attribute away from another entry.

## Main results

* `IsIndex.insert` : adding a new entry and listing it.
* `IsIndex.replace` : overwriting an entry without touching the index.
* `IsIndex.remove` : removing an entry and delisting it.
* `IsReverse.insert`, `IsReverse.remove` : the updates of a reverse index.
-/

namespace XStack

variable {J K V : Type*} [DecidableEq J] [DecidableEq K]

/-- `idx` lists every entry of `m` exactly once, under its own attribute, and has no empty
lists. -/
structure IsIndex (key : V → J) (m : HashMap K V) (idx : HashMap J (List K)) : Prop where
  /-- Every entry is listed under its attribute. -/
  listed : ∀ {k v}, m.get k = some v → ∃ ks, idx.get (key v) = some ks ∧ k ∈ ks
  /-- What is listed under an attribute is an entry with that attribute. -/
  sound : ∀ {j ks k}, idx.get j = some ks → k ∈ ks → ∃ v, m.get k = some v ∧ key v = j
  /-- No entry is listed twice. -/
  nodup : ∀ {j ks}, idx.get j = some ks → ks.Nodup
  /-- No list is empty. -/
  ne_nil : ∀ {j ks}, idx.get j = some ks → ks ≠ []

/-- Append `k` to the list of `j`. -/
def HashMap.enlist (idx : HashMap J (List K)) (j : J) (k : K) : HashMap J (List K) :=
  idx.insert j ((idx.get j).getD [] ++ [k])

/-- Take `k` out of the list of `j`; an empty list is dropped. -/
def HashMap.delist (idx : HashMap J (List K)) (j : J) (k : K) : HashMap J (List K) :=
  if ((idx.get j).getD []).erase k = [] then idx.remove j
  else (idx.remove j).insert j (((idx.get j).getD []).erase k)

omit [DecidableEq K] in
theorem HashMap.get_enlist (idx : HashMap J (List K)) (j j' : J) (k : K) :
    (idx.enlist j k).get j' = if j' = j then some ((idx.get j).getD [] ++ [k]) else idx.get j' :=
  HashMap.get_insert ..

theorem HashMap.get_delist_ne {idx : HashMap J (List K)} {j j' : J} {k : K} (h : j' ≠ j) :
    (idx.delist j k).get j' = idx.get j' := by
  unfold HashMap.delist
  split_ifs
  · exact HashMap.get_remove_ne h
  · rw [HashMap.get_insert_ne h, HashMap.get_remove_ne h]

theorem HashMap.get_delist_self {idx : HashMap J (List K)} {j : J} {k : K} {ks' : List K} :
    (idx.delist j k).get j = some ks' ↔
      ((idx.get j).getD []).erase k = ks' ∧ ks' ≠ [] := by
  unfold HashMap.delist
  split_ifs with h
  · simp only [HashMap.get_remove_self, reduceCtorEq, false_iff, not_and, ne_eq, not_not]
    rintro rfl
    exact h
  · simp only [HashMap.get_insert_self, Option.some.injEq, ne_eq, iff_self_and]
    rintro rfl
    exact h

namespace IsIndex

variable {key : V → J} {m : HashMap K V} {idx : HashMap J (List K)}

theorem empty : IsIndex key (∅ : HashMap K V) (∅ : HashMap J (List K)) :=
  ⟨by simp, by simp, by simp, by simp⟩

theorem eq_key (h : IsIndex key m idx) {j : J} {ks : List K} {k : K} {v : V}
    (hj : idx.get j = some ks) (hk : k ∈ ks) (hv : m.get k = some v) : j = key v := by
  obtain ⟨v', hv', rfl⟩ := h.sound hj hk
  rw [hv] at hv'
  cases hv'
  rfl

theorem exists_iff (h : IsIndex key m idx) {j : J} :
    (∃ ks, idx.get j = some ks) ↔ ∃ k v, m.get k = some v ∧ key v = j := by
  constructor
  · rintro ⟨ks, hks⟩
    obtain ⟨k, hk⟩ := List.exists_mem_of_ne_nil ks (h.ne_nil hks)
    obtain ⟨v, hv, hj⟩ := h.sound hks hk
    exact ⟨k, v, hv, hj⟩
  · rintro ⟨k, v, hv, rfl⟩
    obtain ⟨ks, hks, -⟩ := h.listed hv
    exact ⟨ks, hks⟩

theorem insert (h : IsIndex key m idx) {k : K} (v : V) (hk : m.get k = none) :
    IsIndex key (m.insert k v) (idx.enlist (key v) k) where
  listed {k' v'} hv' := by
    rw [HashMap.get_insert] at hv'
    split_ifs at hv' with hkk
    · cases hv'
      exact ⟨(idx.get (key v)).getD [] ++ [k], by simp [HashMap.get_enlist], by simp [hkk]⟩
    · obtain ⟨ks, hks, hmem⟩ := h.listed hv'
      by_cases hj : key v' = key v
      · rw [hj] at hks ⊢
        exact ⟨ks ++ [k], by simp [HashMap.get_enlist, hks], by simp [hmem]⟩
      · exact ⟨ks, by simp [HashMap.get_enlist, hj, hks], hmem⟩
  sound {j ks k'} hj hk' := by
    -- a key listed before the update is not `k`
    have old : ∀ {j ks}, idx.get j = some ks → k' ∈ ks →
        ∃ v', (m.insert k v).get k' = some v' ∧ key v' = j := by
      intro j ks hks hmem
      obtain ⟨v', hv', he⟩ := h.sound hks hmem
      have hne : k' ≠ k := by rintro rfl; simp [hk] at hv'
      exact ⟨v', by rw [HashMap.get_insert_ne hne, hv'], he⟩
    rw [HashMap.get_enlist] at hj
    split_ifs at hj with hjj
    · cases hj
      rcases List.mem_append.1 hk' with hold | hnew
      · cases hks : idx.get (key v) with
        | none => simp [hks] at hold
        | some ks => exact hjj ▸ old hks (by simpa [hks] using hold)
      · exact ⟨v, by simp [List.mem_singleton.1 hnew], hjj.symm⟩
    · exact old hj hk'
  nodup {j ks} hj := by
    rw [HashMap.get_enlist] at hj
    split_ifs at hj with hjj
    · cases hj
      cases hks : idx.get (key v) with
      | none => simp
      | some ks =>
        have hnot : k ∉ ks := fun hmem => by
          obtain ⟨v', hv', -⟩ := h.sound hks hmem
          simp [hk] at hv'
        rw [Option.getD_some, ← List.concat_eq_append]
        exact (h.nodup hks).concat hnot
    · exact h.nodup hj
  ne_nil {j ks} hj := by
    rw [HashMap.get_enlist] at hj
    split_ifs at hj
    · cases hj; simp
    · exact h.ne_nil hj

theorem replace (h : IsIndex key m idx) {k : K} {v v' : V} (hk : m.get k = some v)
    (hv : key v' = key v) : IsIndex key (m.insert k v') idx where
  listed {k' w} hw := by
    rw [HashMap.get_insert] at hw
    split_ifs at hw with hkk
    · cases hw
      obtain ⟨ks, hks, hmem⟩ := h.listed hk
      exact ⟨ks, by rw [hv, hks], hkk ▸ hmem⟩
    · exact h.listed hw
  sound {j ks k'} hj hmem := by
    obtain ⟨w, hw, he⟩ := h.sound hj hmem
    by_cases hkk : k' = k
    · subst hkk
      rw [hk] at hw
      cases hw
      exact ⟨v', by simp, hv.trans he⟩
    · exact ⟨w, by rw [HashMap.get_insert_ne hkk, hw], he⟩
  nodup := h.nodup
  ne_nil := h.ne_nil

theorem remove (h : IsIndex key m idx) {k : K} {v : V} (hk : m.get k = some v) :
    IsIndex key (m.remove k) (idx.delist (key v) k) where
  listed {k' w} hw := by
    obtain ⟨hne, hw⟩ := HashMap.get_of_get_remove hw
    obtain ⟨ks, hks, hmem⟩ := h.listed hw
    by_cases hj : key w = key v
    · rw [hj] at hks ⊢
      have hmem' : k' ∈ ks.erase k := (List.mem_erase_of_ne hne).2 hmem
      exact ⟨ks.erase k,
        HashMap.get_delist_self.2 ⟨by rw [hks]; rfl, List.ne_nil_of_mem hmem'⟩, hmem'⟩
    · exact ⟨ks, by rw [HashMap.get_delist_ne hj, hks], hmem⟩
  sound {j ks k'} hj hmem := by
    by_cases hjj : j = key v
    · subst hjj
      obtain ⟨rfl, -⟩ := HashMap.get_delist_self.1 hj
      obtain ⟨ks, hks, hkk⟩ := h.listed hk
      simp only [hks, Option.getD_some] at hmem
      obtain ⟨hne, hmem⟩ := (h.nodup hks).mem_erase_iff.1 hmem
      obtain ⟨w, hw, he⟩ := h.sound hks hmem
      exact ⟨w, by rw [HashMap.get_remove_ne hne, hw], he⟩
    · rw [HashMap.get_delist_ne hjj] at hj
      obtain ⟨w, hw, he⟩ := h.sound hj hmem
      have hne : k' ≠ k := by
        rintro rfl
        exact hjj (h.eq_key hj hmem hk)
      exact ⟨w, by rw [HashMap.get_remove_ne hne, hw], he⟩
  nodup {j ks} hj := by
    by_cases hjj : j = key v
    · subst hjj
      obtain ⟨rfl, -⟩ := HashMap.get_delist_self.1 hj
      obtain ⟨ks, hks, -⟩ := h.listed hk
      simpa [hks] using (h.nodup hks).erase k
    · rw [HashMap.get_delist_ne hjj] at hj
      exact h.nodup hj
  ne_nil {j ks} hj := by
    by_cases hjj : j = key v
    · subst hjj
      exact (HashMap.get_delist_self.1 hj).2
    · rw [HashMap.get_delist_ne hjj] at hj
      exact h.ne_nil hj

end IsIndex

/-! ### Reverse indices -/

/-- What `idx` finds for an attribute is an entry with that attribute. -/
def IsReverse (keys : V → List J) (m : HashMap K V) (idx : HashMap J K) : Prop :=
  ∀ j k, idx.get j = some k → ∃ v, m.get k = some v ∧ j ∈ keys v

/-- Claim some attributes for `k`. -/
def HashMap.claim (idx : HashMap J K) (js : List J) (k : K) : HashMap J K :=
  js.foldl (fun idx j => idx.insert j k) idx

/-- Release the attributes of an entry, if there is one. -/
def HashMap.release (keys : V → List J) (idx : HashMap J K) (older : Option V) : HashMap J K :=
  match older with
  | some v => (keys v).foldl HashMap.remove idx
  | none => idx

omit [DecidableEq K] in
theorem HashMap.get_release {keys : V → List J} (idx : HashMap J K) (older : Option V) (j : J) :
    (idx.release keys older).get j =
      if ∃ v, older = some v ∧ j ∈ keys v then none else idx.get j := by
  cases older with
  | none => simp [HashMap.release]
  | some v => simpa [HashMap.release] using HashMap.get_foldl_remove (keys v) idx j

namespace IsReverse

variable {keys : V → List J} {m : HashMap K V} {idx : HashMap J K}

theorem empty : IsReverse keys (∅ : HashMap K V) (∅ : HashMap J K) := by simp [IsReverse]

theorem ne_of_release (h : IsReverse keys m idx) {j : J} {k k' : K}
    (hj : (idx.release keys (m.get k)).get j = some k') :
    k' ≠ k ∧ ∃ v, m.get k' = some v ∧ j ∈ keys v := by
  rw [HashMap.get_release] at hj
  split_ifs at hj with hold
  obtain ⟨v, hv, hmem⟩ := h j k' hj
  refine ⟨?_, v, hv, hmem⟩
  rintro rfl
  exact hold ⟨v, hv, hmem⟩

theorem insert (h : IsReverse keys m idx) (k : K) (v : V) :
    IsReverse keys (m.insert k v) ((idx.release keys (m.get k)).claim (keys v) k) := by
  intro j k' hj
  rw [HashMap.claim, HashMap.get_foldl_insert] at hj
  split_ifs at hj with hnew
  · cases hj
    exact ⟨v, HashMap.get_insert_self m k v, hnew⟩
  · obtain ⟨hne, v', hv', hmem⟩ := h.ne_of_release hj
    exact ⟨v', by rw [HashMap.get_insert_ne hne, hv'], hmem⟩

theorem remove (h : IsReverse keys m idx) (k : K) :
    IsReverse keys (m.remove k) (idx.release keys (m.get k)) := by
  intro j k' hj
  obtain ⟨hne, v', hv', hmem⟩ := h.ne_of_release hj
  exact ⟨v', by rw [HashMap.get_remove_ne hne, hv'], hmem⟩

theorem replace (h : IsReverse keys m idx) {k : K} {v v' : V} (hk : m.get k = some v)
    (hv : keys v' = keys v) : IsReverse keys (m.insert k v') idx := by
  intro j k' hj
  obtain ⟨w, hw, hmem⟩ := h j k' hj
  by_cases hkk : k' = k
  · subst hkk
    rw [hk] at hw
    cases hw
    exact ⟨v', HashMap.get_insert_self m k' v', hv ▸ hmem⟩
  · exact ⟨w, by rw [HashMap.get_insert_ne hkk, hw], hmem⟩

end IsReverse

end XStack
