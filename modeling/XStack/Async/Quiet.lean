import XStack.Async.Basic

/-!
# Blocks that change nothing

Many a block computes, or waits for its peer, before it comes to the point where it changes the
shared state.  As long as it has not, the state is what the other tasks have made of it.

## Main definitions

* `World.wait` : the world after some number of await points at which the block has changed nothing.
* `Async.Quiet x P` : the block changes nothing, and what it answers satisfies `P`.

## Main results

* `Quiet.bind` : chains of quiet blocks.
* `Quiet.run` : what a block does after a quiet beginning.
* `lock_run` : what it does after taking a mutex.
-/

namespace XStack

variable {σ ε π α β : Type}

namespace World

/-- The world after the block has passed `n` await points and changed nothing. -/
def wait : ℕ → World σ → World σ
  | 0, w => w
  | n + 1, w => wait n { w with now := w.now + 1, state := w.others w.now w.state }

/-- The block changes the state. -/
def update (f : σ → σ) (w : World σ) : World σ := { w with state := f w.state }

theorem wait_wait (m n : ℕ) (w : World σ) : (w.wait m).wait n = w.wait (m + n) := by
  induction m generalizing w with
  | zero => rw [Nat.zero_add]; rfl
  | succ m ih =>
    rw [Nat.succ_add]
    exact ih _

theorem deadline_wait (n : ℕ) (w : World σ) : (w.wait n).deadline = w.deadline := by
  induction n generalizing w with
  | zero => rfl
  | succ n ih => exact ih _

theorem wait_alone (m n : ℕ) (s : σ) : (alone n s).wait m = alone (n + m) s := by
  induction m generalizing n with
  | zero => rfl
  | succ m ih =>
    rw [Nat.add_comm m 1, ← Nat.add_assoc, ← ih (n + 1), Nat.add_comm 1 m]
    rfl

end World

namespace Async

variable {x : Async σ ε π α} {f : α → Async σ ε π β} {P : α → Prop} {Q : β → Prop}

theorem await_apply (w : World σ) : (await : Async σ ε π Unit) w = (.ok (), w.wait 1) ∨
    (await : Async σ ε π Unit) w = (.error .cancelled, w) ∧ w.deadline ≠ none := by
  unfold await
  by_cases hexpired : w.expired = true
  · rw [if_pos hexpired]
    refine .inr ⟨rfl, fun hnone => ?_⟩
    rw [World.expired, hnone] at hexpired
    cases hexpired
  · rw [if_neg hexpired]
    exact .inl rfl

/-- The block changes nothing: it fails, or is dropped by its timer, or answers something that
satisfies `P`, and leaves the state to the other tasks. -/
def Quiet (x : Async σ ε π α) (P : α → Prop) : Prop :=
  ∀ w : World σ, (∃ e k, x w = (.error (.error e), w.wait k)) ∨
    (∃ k, x w = (.error .cancelled, w.wait k) ∧ w.deadline ≠ none) ∨
    ∃ a k, x w = (.ok a, w.wait k) ∧ P a

namespace Quiet

theorem pure {a : α} (ha : P a) : Quiet (Pure.pure a : Async σ ε π α) P :=
  fun _ => .inr (.inr ⟨a, 0, rfl, ha⟩)

theorem fail (e : ε) : Quiet (Async.fail e : Async σ ε π α) P := fun _ => .inl ⟨e, 0, rfl⟩

theorem ofExcept {y : Except ε α} (hy : ∀ a, y = .ok a → P a) :
    Quiet (Async.ofExcept y : Async σ ε π α) P := by
  cases y with
  | ok a => exact pure (hy a rfl)
  | error e => exact fail e

theorem await : Quiet (Async.await : Async σ ε π Unit) fun _ => True := by
  intro w
  rcases await_apply w with h | ⟨h, hdeadline⟩
  · exact .inr (.inr ⟨(), 1, h, trivial⟩)
  · exact .inr (.inl ⟨0, h, hdeadline⟩)

/-- **What a block does after a quiet beginning.**  Whatever holds of all failures and drops that
change nothing, and of what the rest of the block comes to, holds of the block. -/
theorem run {R : Except (Stop ε π) β × World σ → Prop} {w : World σ} {k : ℕ} (hx : x.Quiet P)
    (herror : ∀ e k, R (.error (.error e), w.wait k))
    (hdropped : ∀ k, w.deadline ≠ none → R (.error .cancelled, w.wait k))
    (hf : ∀ a k, P a → R (f a (w.wait k))) : R ((x >>= f) (w.wait k)) := by
  rw [bind_apply]
  rcases hx (w.wait k) with ⟨e, n, h⟩ | ⟨n, h, hdeadline⟩ | ⟨a, n, h, ha⟩
  · rw [h, World.wait_wait]
    exact herror e _
  · rw [h, World.wait_wait]
    rw [World.deadline_wait] at hdeadline
    exact hdropped _ hdeadline
  · rw [h, World.wait_wait]
    exact hf a _ ha

theorem run_guard {R : Except (Stop ε π) α × World σ → Prop} {c : Prop} [Decidable c] {e : ε}
    {w : World σ} (herror : R (.error (.error e), w)) (hx : ¬ c → R (x w)) :
    R ((if c then Async.fail e else x : Async σ ε π α) w) := by
  by_cases hc : c
  · rw [if_pos hc]
    exact herror
  · rw [if_neg hc]
    exact hx hc

theorem bind (hx : x.Quiet P) (hf : ∀ a, P a → (f a).Quiet Q) : (x >>= f).Quiet Q := by
  intro w
  refine hx.run (w := w) (k := 0)
    (R := fun r => (∃ e k, r = (.error (.error e), w.wait k)) ∨
      (∃ k, r = (.error .cancelled, w.wait k) ∧ w.deadline ≠ none) ∨
      ∃ b k, r = (.ok b, w.wait k) ∧ Q b)
    (fun e k => .inl ⟨e, k, rfl⟩) (fun k hdeadline => .inr (.inl ⟨k, rfl, hdeadline⟩))
    fun a k ha => ?_
  rcases hf a ha (w.wait k) with ⟨e, n, h⟩ | ⟨n, h, hdeadline⟩ | ⟨b, n, h, hb⟩
  · exact .inl ⟨e, k + n, by rw [h, World.wait_wait]⟩
  · rw [World.deadline_wait] at hdeadline
    exact .inr (.inl ⟨k + n, by rw [h, World.wait_wait], hdeadline⟩)
  · exact .inr (.inr ⟨b, k + n, by rw [h, World.wait_wait], hb⟩)

end Quiet

/-- Taking a mutex: the state is changed after an await point, unless the timer has fired. -/
theorem lock_run {R : Except (Stop ε π) β × World σ → Prop} {g : σ → Except π (α × σ)} {a : σ → α}
    {h : σ → σ} {w : World σ} (hg : ∀ s, g s = .ok (a s, h s))
    (hdropped : w.deadline ≠ none → R (.error .cancelled, w))
    (hf : R (f (a (w.wait 1).state) ((w.wait 1).update h))) :
    R ((lock g >>= f : Async σ ε π β) w) := by
  rcases await_apply (ε := ε) (π := π) w with hawait | ⟨hawait, hdeadline⟩
  · have hlock : (lock g : Async σ ε π α) w = (.ok (a (w.wait 1).state), (w.wait 1).update h) :=
      (bind_apply await _ w).trans (by rw [hawait]; simp only [hg]; rfl)
    rwa [bind_apply, hlock]
  · have hlock : (lock g : Async σ ε π α) w = (.error .cancelled, w) :=
      (bind_apply await _ w).trans (by rw [hawait])
    rw [bind_apply, hlock]
    exact hdropped hdeadline

end Async

end XStack
