import Mathlib.Data.List.Perm.Basic

/-!
# Unspecified orders and random choices

The code shuffles address lists, picks random elements and traverses hash maps in an unspecified
order.  Each such choice is a parameter that carries the proof that it is a legal one, so that a
theorem about the code quantifies over all the choices it could make.

* `Shuffle α` : a reordering of every list (`rand::seq::SliceRandom::shuffle`, hash map order).
* `Chooser α` : a choice of one element (`rand::seq::IteratorRandom::choose`), `none` exactly on
  the empty list.
-/

namespace XStack

variable {α : Type*}

/-- A reordering of lists. -/
structure Shuffle (α : Type*) where
  /-- The list in its new order. -/
  run : List α → List α
  /-- Nothing is lost, added or duplicated. -/
  perm : ∀ l, (run l).Perm l

namespace Shuffle

/-- Leave every list as it is. -/
protected def id : Shuffle α := ⟨fun l => l, fun _ => .refl _⟩

/-- The shuffle that turns `l` into `l'` and leaves every other list as it is. -/
def single [DecidableEq α] (l l' : List α) (h : l'.Perm l) : Shuffle α where
  run x := if x = l then l' else x
  perm x := by
    split_ifs with hx
    · rw [hx]; exact h
    · exact .refl _

@[simp] theorem single_run [DecidableEq α] (l l' : List α) (h : l'.Perm l) :
    (single l l' h).run l = l' := by simp [single]

theorem mem_run (r : Shuffle α) {l : List α} {a : α} : a ∈ r.run l ↔ a ∈ l := (r.perm l).mem_iff

end Shuffle

/-- A random choice of an element. -/
structure Chooser (α : Type*) where
  /-- The chosen element, if there is one. -/
  choose : List α → Option α
  /-- What is chosen comes from the list. -/
  mem : ∀ l a, choose l = some a → a ∈ l
  /-- Something is chosen unless the list is empty. -/
  eq_nil : ∀ l, choose l = none → l = []

namespace Chooser

/-- Choose the first element. -/
def head : Chooser α where
  choose := List.head?
  mem _ _ h := List.mem_of_head? h
  eq_nil _ h := List.head?_eq_none_iff.1 h

/-- Choose `a` wherever it occurs, and the first element elsewhere. -/
def favour [DecidableEq α] (a : α) : Chooser α where
  choose l := if a ∈ l then some a else l.head?
  mem l b h := by
    split_ifs at h with ha
    · cases h; exact ha
    · exact List.mem_of_head? h
  eq_nil l h := by
    split_ifs at h
    exact List.head?_eq_none_iff.1 h

@[simp] theorem favour_choose [DecidableEq α] {a : α} {l : List α} (h : a ∈ l) :
    (favour a).choose l = some a := by simp [favour, h]

end Chooser

end XStack
