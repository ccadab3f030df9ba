import Mathlib.Data.Nat.Notation

/-!
# Asynchronous code

An async block runs until it ends with a result, fails, aborts, or is dropped at one of its await
points because a timeout has expired.  While it is at an await point other tasks may change the
state it shares with them.

Time is counted in await points: a timeout is the number of them that the block passes before the
timer fires.

## Main definitions

* `Async σ ε π α` : a block that answers an `α`, fails with an `ε` or aborts with a `π`.
* `Async.await`, `Async.lock`, `Async.settle`, `Async.timeout` : the building blocks.
* `Async.May x a` : some run of `x` answers `a`.
* `Async.Does x s a s'` : running alone in the state `s`, `x` answers `a` and leaves `s'`.
* `Async.Answers x s a` : running alone in the state `s`, `x` answers `a`.

## Main results

One rule for each building block: what it took to get an answer (`may_bind`, `may_timeout`, …), and
how a run alone is put together (`Does.bind`, `Does.timeout`, …).
-/

namespace XStack

/-- How a block ends without a result. -/
inductive Stop (ε π : Type) where
  /-- It fails. -/
  | error (e : ε)
  /-- It aborts; nobody can recover from this. -/
  | aborted (reason : π)
  /-- It is dropped at an await point. -/
  | cancelled

/-- The surroundings of a running block. -/
structure World (σ : Type) where
  /-- The number of await points passed so far. -/
  now : ℕ
  /-- The timer of the block fires at this await point. -/
  deadline : Option ℕ
  /-- What the other tasks do to the shared state at an await point. -/
  others : ℕ → σ → σ
  /-- The shared state. -/
  state : σ

/-- An async block. -/
def Async (σ ε π α : Type) : Type := World σ → Except (Stop ε π) α × World σ

variable {σ ε π α β : Type}

namespace World

/-- The timer has fired. -/
def expired (w : World σ) : Bool := w.deadline.any (· ≤ w.now)

/-- A block that runs alone, without a timer. -/
def alone (n : ℕ) (s : σ) : World σ := ⟨n, none, fun _ s => s, s⟩

end World

namespace Async

instance : Monad (Async σ ε π) where
  pure a w := (.ok a, w)
  bind x f w :=
    match x w with
    | (.ok a, w) => f a w
    | (.error e, w) => (.error e, w)

theorem bind_apply (x : Async σ ε π α) (f : α → Async σ ε π β) (w : World σ) :
    (x >>= f) w = match x w with
      | (.ok a, w) => f a w
      | (.error e, w) => (.error e, w) := rfl

/-- Fail. -/
def fail (e : ε) : Async σ ε π α := fun w => (.error (.error e), w)

/-- Abort. -/
def abort (reason : π) : Async σ ε π α := fun w => (.error (.aborted reason), w)

/-- Propagate the failure of a computation. -/
def ofExcept (x : Except ε α) : Async σ ε π α :=
  match x with
  | .ok a => pure a
  | .error e => fail e

/-- Change the shared state. -/
def modify (f : σ → σ) : Async σ ε π Unit := fun w => (.ok (), { w with state := f w.state })

/-- Pass an await point. -/
def await : Async σ ε π Unit := fun w =>
  if w.expired then (.error .cancelled, w)
  else (.ok (), { w with now := w.now + 1, state := w.others w.now w.state })

/-- Wait for a mutex, and use what it protects. -/
def lock (f : σ → Except π (α × σ)) : Async σ ε π α := do
  await
  fun w =>
    match f w.state with
    | .ok (a, s) => (.ok a, { w with state := s })
    | .error reason => (.error (.aborted reason), w)

/-- Turn the failure of a block into an answer. -/
def settle (x : Async σ ε π α) : Async σ ε π (Except ε α) := fun w =>
  match x w with
  | (.ok a, w) => (.ok (.ok a), w)
  | (.error (.error e), w) => (.ok (.error e), w)
  | (.error (.aborted reason), w) => (.error (.aborted reason), w)
  | (.error .cancelled, w) => (.error .cancelled, w)

/-- The earlier one of two deadlines. -/
def earlier : Option ℕ → Option ℕ → Option ℕ
  | some d, some d' => some (min d d')
  | some d, none => some d
  | none, d' => d'

/-- Run a block under a timer; the answer is `none` if it fires. -/
def timeout (t : Option ℕ) (x : Async σ ε π α) : Async σ ε π (Option α) := fun w =>
  match x { w with deadline := earlier w.deadline (t.map (w.now + ·)) } with
  | (.ok a, w') => (.ok (some a), { w' with deadline := w.deadline })
  | (.error .cancelled, w') =>
    let w' := { w' with deadline := w.deadline }
    -- a timer further out that has fired too drops this block as well
    if w'.expired then (.error .cancelled, w') else (.ok none, w')
  | (.error e, w') => (.error e, { w' with deadline := w.deadline })

/-! ### What it takes to get an answer -/

/-- Some run of the block answers `a`. -/
def May (x : Async σ ε π α) (a : α) : Prop := ∃ w w', x w = (.ok a, w')

theorem may_pure {a b : α} (h : May (pure a : Async σ ε π α) b) : a = b := by
  obtain ⟨w, w', h⟩ := h
  cases h
  rfl

theorem may_bind {x : Async σ ε π α} {f : α → Async σ ε π β} {b : β} (h : May (x >>= f) b) :
    ∃ a, x.May a ∧ (f a).May b := by
  obtain ⟨w, w', h⟩ := h
  rw [bind_apply] at h
  rcases hx : x w with ⟨_ | a, w₁⟩ <;> rw [hx] at h
  · cases h
  · exact ⟨a, ⟨w, w₁, hx⟩, w₁, w', h⟩

theorem not_may_fail {e : ε} {a : α} : ¬ May (fail e : Async σ ε π α) a := by
  rintro ⟨w, w', h⟩
  cases h

theorem not_may_abort {reason : π} {a : α} : ¬ May (abort reason : Async σ ε π α) a := by
  rintro ⟨w, w', h⟩
  cases h

theorem may_ofExcept {x : Except ε α} {a : α} (h : May (ofExcept x : Async σ ε π α) a) :
    x = .ok a := by
  cases x with
  | error e => exact absurd h not_may_fail
  | ok b => rw [may_pure h]

theorem may_settle {x : Async σ ε π α} {a : α} (h : x.settle.May (.ok a)) : x.May a := by
  obtain ⟨w, w', h⟩ := h
  unfold settle at h
  rcases hx : x w with ⟨(_ | _ | _) | b, w₁⟩ <;> rw [hx] at h <;> cases h
  exact ⟨w, _, hx⟩

theorem may_timeout {t : Option ℕ} {x : Async σ ε π α} {a : α} (h : (timeout t x).May (some a)) :
    x.May a := by
  obtain ⟨w, w', h⟩ := h
  unfold timeout at h
  rcases hx : x { w with deadline := earlier w.deadline (t.map (w.now + ·)) } with
    ⟨(_ | _ | _) | b, w₁⟩ <;> simp only [hx] at h
  · cases h
  · cases h
  · split at h <;> cases h
  · cases h
    exact ⟨_, _, hx⟩

/-! ### Running alone -/

/-- Running alone in the state `s`, the block answers `a` and leaves the state `s'`. -/
def Does (x : Async σ ε π α) (s : σ) (a : α) (s' : σ) : Prop :=
  ∀ n, ∃ n', x (.alone n s) = (.ok a, .alone n' s')

/-- Running alone in the state `s`, the block answers `a`. -/
def Answers (x : Async σ ε π α) (s : σ) (a : α) : Prop := ∃ n w', x (.alone n s) = (.ok a, w')

theorem Answers.may {x : Async σ ε π α} {s : σ} {a : α} (h : x.Answers s a) : x.May a := by
  obtain ⟨n, w', h⟩ := h
  exact ⟨_, w', h⟩

namespace Does

variable {x : Async σ ε π α} {f : α → Async σ ε π β} {s s₁ s₂ : σ} {a : α} {b : β}

theorem answers (h : x.Does s a s₁) : x.Answers s a := by
  obtain ⟨n', h⟩ := h 0
  exact ⟨0, _, h⟩

theorem pure : Does (Pure.pure a : Async σ ε π α) s a s := fun n => ⟨n, rfl⟩

theorem bind (hx : x.Does s a s₁) (hf : (f a).Does s₁ b s₂) : Does (x >>= f) s b s₂ := by
  intro n
  obtain ⟨n₁, hx⟩ := hx n
  obtain ⟨n₂, hf⟩ := hf n₁
  refine ⟨n₂, ?_⟩
  rw [bind_apply, hx]
  exact hf

theorem ofExcept {y : Except ε α} (hy : y = .ok a) :
    Does (Async.ofExcept y : Async σ ε π α) s a s := by
  rw [hy]
  exact Does.pure

theorem await : Does (Async.await : Async σ ε π Unit) s () s := fun n => ⟨n + 1, rfl⟩

theorem lock {g : σ → Except π (α × σ)} (hg : g s = .ok (a, s₁)) :
    Does (Async.lock g : Async σ ε π α) s a s₁ := by
  refine Does.await.bind fun n => ⟨n, ?_⟩
  simp only [World.alone, hg]

theorem settle (hx : x.Does s a s₁) : x.settle.Does s (.ok a) s₁ := by
  intro n
  obtain ⟨n', hx⟩ := hx n
  exact ⟨n', by simp only [Async.settle, hx]⟩

theorem timeout (hx : x.Does s a s₁) : (Async.timeout none x).Does s (some a) s₁ := by
  intro n
  obtain ⟨n', hx⟩ := hx n
  refine ⟨n', ?_⟩
  have hx' : x { World.alone n s with deadline := none } = (.ok a, .alone n' s₁) := hx
  simp only [Async.timeout, World.alone, earlier, Option.map_none] at hx' ⊢
  rw [hx']

theorem settle_fail {e : ε} : (Async.fail e : Async σ ε π α).settle.Does s (.error e) s :=
  fun n => ⟨n, rfl⟩

theorem settle_bind {r : Except ε β} (hx : x.Does s a s₁) (hf : (f a).settle.Does s₁ r s₂) :
    (x >>= f).settle.Does s r s₂ := by
  intro n
  obtain ⟨n₁, hx⟩ := hx n
  obtain ⟨n₂, hf⟩ := hf n₁
  have hbind : (x >>= f) (.alone n s) = f a (.alone n₁ s₁) := by rw [bind_apply, hx]
  have hsettle : (x >>= f).settle (.alone n s) = (f a).settle (.alone n₁ s₁) := by
    simp only [Async.settle, hbind]
  exact ⟨n₂, hsettle.trans hf⟩

theorem timeout_zero {g : Unit → Async σ ε π α} :
    (Async.timeout (some 0) (Async.await >>= g)).Does s none s := by
  intro n
  let w : World σ := ⟨n, some n, fun _ s => s, s⟩
  have hawait : (Async.await : Async σ ε π Unit) w = (.error .cancelled, w) := by
    simp [Async.await, World.expired, w]
  have hdropped : ∀ y : Async σ ε π Unit, y w = (.error .cancelled, w) →
      (y >>= g) w = (.error .cancelled, w) := by
    intro y hy
    rw [bind_apply, hy]
  refine ⟨n, ?_⟩
  have htimed : (Async.await >>= g : Async σ ε π α) { World.alone n s with
      deadline := earlier (World.alone n s).deadline ((some 0).map ((World.alone n s).now + ·)) } =
      (.error .cancelled, w) := hdropped _ hawait
  simp only [Async.timeout, htimed]
  rfl

/-- What a block answers after a step that is known. -/
theorem answers_bind (hx : x.Does s a s₁) (h : Answers (x >>= f) s b) : (f a).Answers s₁ b := by
  obtain ⟨n, w', h⟩ := h
  obtain ⟨n₁, hx⟩ := hx n
  rw [bind_apply, hx] at h
  exact ⟨n₁, w', h⟩

end Does

end Async

end XStack
