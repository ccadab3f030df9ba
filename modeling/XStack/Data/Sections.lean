import Mathlib.Data.List.Sections
import Mathlib.Data.Multiset.Bind

/-!
# Choosing one element of each list

`List.sections` lists the ways to choose one element from each of several lists.  A loop that goes
through the lists and extends all the beginnings that it has by all elements of the next list finds
the same choices, in another order.

## Main results

* `extend_perm` : one step of such a loop.
* `subset_of_sections_subset` : the lists can be recovered from the choices.
-/

namespace XStack

variable {α β γ : Type*}

/-- The order of two nested loops does not matter. -/
theorem flatMap_comm_perm (xs : List α) (ys : List β) (f : α → β → List γ) :
    (xs.flatMap fun x => ys.flatMap (f x)).Perm
      (ys.flatMap fun y => xs.flatMap fun x => f x y) := by
  rw [← Multiset.coe_eq_coe]
  simp only [← Multiset.coe_bind]
  exact Multiset.bind_bind _ _

/-- Beginnings that are extended by the elements of a list, and continued with the choices from the
lists after it, are continued with the choices from all these lists. -/
theorem extend_perm (built : List (List α)) (xs : List α) (lists : List (List α)) :
    ((xs.flatMap fun x => built.map (· ++ [x])).flatMap fun s => lists.sections.map (s ++ ·)).Perm
      (built.flatMap fun s => (xs :: lists).sections.map (s ++ ·)) := by
  have hleft : ((xs.flatMap fun x => built.map (· ++ [x])).flatMap
      fun s => lists.sections.map (s ++ ·)) =
      xs.flatMap fun x => built.flatMap fun s => lists.sections.map fun t => s ++ x :: t := by
    simp only [List.flatMap_assoc, List.flatMap_map, List.append_assoc, List.singleton_append]
  have hright : (built.flatMap fun s => (xs :: lists).sections.map (s ++ ·)) =
      built.flatMap fun s => lists.sections.flatMap fun t => xs.map fun x => s ++ x :: t := by
    simp only [List.sections, List.map_flatMap, List.map_map, Function.comp_def]
  rw [hleft, hright]
  refine (flatMap_comm_perm xs built _).trans (.flatMap_left _ fun s _ => ?_)
  rw [← Multiset.coe_eq_coe]
  simp only [← Multiset.coe_bind, ← Multiset.map_coe]
  exact Multiset.bind_map_comm _ _

theorem sections_ne_nil {lists : List (List α)} (h : ∀ l ∈ lists, l ≠ []) :
    lists.sections ≠ [] := by
  induction lists with
  | nil => simp
  | cons l lists ih =>
    obtain ⟨s, hs⟩ := List.exists_mem_of_ne_nil _ (ih fun l' hl' => h l' (.tail _ hl'))
    obtain ⟨a, ha⟩ := List.exists_mem_of_ne_nil _ (h l (.head _))
    exact List.ne_nil_of_mem (List.mem_sections.2 (.cons ha (List.mem_sections.1 hs)))

theorem sections_eq_nil {lists : List (List α)} (h : [] ∈ lists) : lists.sections = [] := by
  induction lists with
  | nil => cases h
  | cons l lists ih =>
    rcases List.mem_cons.1 h with rfl | h
    · simp [List.sections]
    · simp [List.sections, ih h]

/-- If all choices from the first lists are choices from the second ones, the first lists are parts
of the second ones. -/
theorem subset_of_sections_subset {ι : Type*} {l l' : ι → List α} {is : List ι}
    (hne : ∀ i ∈ is, l i ≠ []) (h : (is.map l).sections ⊆ (is.map l').sections) :
    ∀ i ∈ is, l i ⊆ l' i := by
  induction is with
  | nil => simp
  | cons i is ih =>
    have hcons : ∀ a ∈ l i, ∀ s ∈ (is.map l).sections, a ∈ l' i ∧ s ∈ (is.map l').sections := by
      intro a ha s hs
      have hmem := List.mem_sections.1 (h (List.mem_sections.2 (.cons ha (List.mem_sections.1 hs))))
      rw [List.map_cons, List.forall₂_cons] at hmem
      exact ⟨hmem.1, List.mem_sections.2 hmem.2⟩
    rw [List.forall_mem_cons] at hne ⊢
    refine ⟨fun a ha => ?_, ih hne.2 fun s hs => ?_⟩
    · have hall : ∀ list ∈ is.map l, list ≠ [] := by simpa using hne.2
      obtain ⟨s, hs⟩ := List.exists_mem_of_ne_nil _ (sections_ne_nil hall)
      exact (hcons a ha s hs).1
    · obtain ⟨a, ha⟩ := List.exists_mem_of_ne_nil _ hne.1
      exact (hcons a ha s hs).2

end XStack
