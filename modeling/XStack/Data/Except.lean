import Mathlib.Data.List.Forall2

/-!
# Computations that can fail

Inversion of the `?` operator: a chain of fallible computations succeeds when each of them does.
`okOr` turns a missing value into an error.  A loop over a list succeeds when its body does on every
item (`mapM_ok_iff`).

A computation in `EStateM` also changes a state, which remains when it fails (`run_bind_ok`,
`run_bind_error`).
-/

namespace XStack

universe u v

variable {ε ε' : Type u} {α β : Type v}

/-- `Option::ok_or`. -/
def okOr (err : ε) : Option α → Except ε α
  | some a => .ok a
  | none => .error err

theorem okOr_ok_iff {err : ε} {x : Option α} {a : α} : okOr err x = .ok a ↔ x = some a := by
  cases x <;> simp [okOr]

theorem toOption_eq_some_iff {x : Except ε α} {a : α} : x.toOption = some a ↔ x = .ok a := by
  cases x <;> simp [Except.toOption]

/-- A chain succeeds if its first computation does, and the rest succeeds on its result. -/
theorem bind_eq_ok {x : Except ε α} {f : α → Except ε β} {b : β} :
    x >>= f = .ok b ↔ ∃ a, x = .ok a ∧ f a = .ok b := by
  cases x with
  | error e => simp [bind, Except.bind]
  | ok a => simp [bind, Except.bind]

@[simp] theorem mapError_ok (f : ε → ε') (a : α) : (Except.ok a).mapError f = .ok a := rfl

@[simp] theorem mapError_error (f : ε → ε') (e : ε) :
    (Except.error e : Except ε α).mapError f = .error (f e) := rfl

theorem mapError_ok_iff {f : ε → ε'} {x : Except ε α} {a : α} :
    x.mapError f = .ok a ↔ x = .ok a := by
  cases x with
  | error e => simp
  | ok a' => simp

/-- The order of two computations that do not need each other does not matter to their success. -/
theorem bind_comm_ok {γ : Type v} {x : Except ε α} {y : Except ε β} {f : α → β → γ}
    {c : γ} : (x >>= fun a => y >>= fun b => pure (f a b)) = .ok c ↔
      (y >>= fun b => x >>= fun a => pure (f a b)) = .ok c := by
  cases x <;> cases y <;> simp [bind, Except.bind]

/-! ### Loops over fallible computations -/

/-- A loop gets through if its body does on every item, and then has their results in order. -/
theorem mapM_ok_iff {f : α → Except ε β} {l : List α} {bs : List β} :
    l.mapM f = .ok bs ↔ List.Forall₂ (fun a b => f a = .ok b) l bs := by
  induction l generalizing bs with
  | nil =>
    rw [List.mapM_nil, List.forall₂_nil_left_iff]
    constructor
    · rintro ⟨⟩
      rfl
    · rintro rfl
      rfl
  | cons a l ih =>
    rw [List.mapM_cons, List.forall₂_cons_left_iff, bind_eq_ok]
    refine exists_congr fun b => ?_
    rw [bind_eq_ok]
    constructor
    · rintro ⟨hb, bs', hbs, he⟩
      cases he
      exact ⟨bs', hb, ih.1 hbs, rfl⟩
    · rintro ⟨bs', hb, hbs, rfl⟩
      exact ⟨hb, bs', ih.2 hbs, rfl⟩

theorem mapM_ok_map {f : α → Except ε β} {g : α → β} {l : List α}
    (h : ∀ a ∈ l, f a = .ok (g a)) : l.mapM f = .ok (l.map g) := by
  rw [mapM_ok_iff, List.forall₂_map_right_iff, List.forall₂_same]
  exact h

theorem mapM_ok_congr {f g : α → Except ε β} {l : List α} {bs : List β}
    (h : ∀ a b, f a = .ok b ↔ g a = .ok b) : l.mapM f = .ok bs ↔ l.mapM g = .ok bs := by
  rw [mapM_ok_iff, mapM_ok_iff]
  exact ⟨.imp fun a b => (h a b).1, .imp fun a b => (h a b).2⟩

theorem exists_of_mem_mapM {f : α → Except ε β} {l : List α} {bs : List β}
    (h : l.mapM f = .ok bs) {b : β} (hb : b ∈ bs) : ∃ a ∈ l, f a = .ok b := by
  have hall := mapM_ok_iff.1 h
  clear h
  induction hall with
  | nil => cases hb
  | cons hhead _ ih =>
    rcases List.mem_cons.1 hb with rfl | hb
    · exact ⟨_, List.mem_cons_self, hhead⟩
    · obtain ⟨a, ha, hf⟩ := ih hb
      exact ⟨a, List.mem_cons_of_mem _ ha, hf⟩

/-! ### Computations with a state -/

section State

variable {ε σ α β : Type u} {x : EStateM ε σ α} {f : α → EStateM ε σ β} {s s₁ s' : σ}

theorem run_bind_ok {a : α} (h : x s = .ok a s₁) : (x >>= f) s = f a s₁ := by
  show EStateM.bind x f s = f a s₁
  rw [EStateM.bind, h]

theorem run_bind_error {e : ε} (h : x s = .error e s₁) : (x >>= f) s = .error e s₁ := by
  show EStateM.bind x f s = .error e s₁
  rw [EStateM.bind, h]

theorem run_bind_eq_ok {b : β} :
    (x >>= f) s = .ok b s' ↔ ∃ a s₁, x s = .ok a s₁ ∧ f a s₁ = .ok b s' := by
  constructor
  · intro h
    rcases hx : x s with ⟨a, s₁⟩ | ⟨e, s₁⟩
    · rw [run_bind_ok hx] at h
      exact ⟨a, s₁, rfl, h⟩
    · rw [run_bind_error hx] at h
      cases h
  · rintro ⟨a, s₁, hx, hf⟩
    rw [run_bind_ok hx, hf]

end State

end XStack
