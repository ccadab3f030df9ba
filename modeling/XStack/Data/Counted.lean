import Mathlib.Data.List.Count
import Mathlib.Logic.Function.Basic

/-!
# Counting what is alive

A shared counter that is raised when a value is created and lowered when it is dropped tells how
many values there are.  Values have keys, and there is a counter for each key.  The counters are
machine words, and wrap.

* `Counted.Exact` : every counter is the number of live values with its key, as a machine word.
* `Counted.Exact.create`, `Counted.Exact.drop` : it stays so.
* `Counted.Exact.toNat_eq` : the number itself, as long as it fits.
-/

namespace XStack

/-- Counters by key, and the values that are counted. -/
structure Counted (α κ : Type*) where
  /-- The counters. -/
  counter : κ → UInt64
  /-- The live values. -/
  live : List α

namespace Counted

variable {α κ : Type*}

/-- Nothing is alive. -/
def new : Counted α κ := ⟨fun _ => 0, []⟩

variable [DecidableEq κ] (key : α → κ)

/-- A value is created, with `fetch_add(1)` on its counter. -/
def create (c : Counted α κ) (a : α) : Counted α κ :=
  ⟨Function.update c.counter (key a) (c.counter (key a) + 1), a :: c.live⟩

/-- A value is dropped, with `fetch_sub(1)` on its counter. -/
def drop [DecidableEq α] (c : Counted α κ) (a : α) : Counted α κ :=
  ⟨Function.update c.counter (key a) (c.counter (key a) - 1), c.live.erase a⟩

/-- The number of live values with a key. -/
def alive (c : Counted α κ) (k : κ) : ℕ := c.live.countP (key · = k)

/-- The counters are the numbers of live values. -/
def Exact (c : Counted α κ) : Prop := ∀ k, c.counter k = .ofNat (c.alive key k)

variable {key} {c : Counted α κ} {a : α} {k : κ}

theorem alive_eq_zero : c.alive key k = 0 ↔ ∀ a ∈ c.live, key a ≠ k := by
  simp [alive, List.countP_eq_zero]

theorem exact_new : (new : Counted α κ).Exact key := fun _ => rfl

theorem Exact.create (h : c.Exact key) (a : α) : (c.create key a).Exact key := by
  intro k
  by_cases hk : key a = k
  · subst hk
    simp [Counted.create, alive, h (key a), UInt64.ofNat_add]
  · simp [Counted.create, alive, h k, hk, Function.update_of_ne (Ne.symm hk)]

/-- Only what is alive can be dropped, so that no counter falls below zero. -/
theorem Exact.drop [DecidableEq α] (h : c.Exact key) (ha : a ∈ c.live) :
    (c.drop key a).Exact key := by
  intro k
  have hcount : c.alive key k = (c.drop key a).alive key k + if key a = k then 1 else 0 := by
    rw [alive, (List.perm_cons_erase ha).countP_eq, List.countP_cons]
    simp [alive, Counted.drop]
  by_cases hk : key a = k
  · subst hk
    have hlower : (c.drop key a).counter (key a) = c.counter (key a) - 1 :=
      Function.update_self ..
    rw [hlower, h (key a), hcount, if_pos rfl, UInt64.ofNat_add]
    exact UInt64.add_sub_cancel _ _
  · rw [if_neg hk] at hcount
    rw [← Nat.add_zero ((c.drop key a).alive key k), ← hcount, ← h k]
    exact Function.update_of_ne (Ne.symm hk) ..

theorem Exact.toNat (h : c.Exact key) (k : κ) :
    (c.counter k).toNat = c.alive key k % UInt64.size := by
  rw [h k, UInt64.toNat_ofNat']

/-- The counter of a key is its number of live values, unless there are too many. -/
theorem Exact.toNat_eq (h : c.Exact key) (hfew : c.live.length < UInt64.size) (k : κ) :
    (c.counter k).toNat = c.alive key k := by
  have hle : c.alive key k ≤ c.live.length := List.countP_le_length
  rw [h.toNat, Nat.mod_eq_of_lt (Nat.lt_of_le_of_lt hle hfew)]

end Counted

end XStack
