import XStack.Async.Basic

/-!
# Counting await points

When a timer drops a block is decided by the number of await points that the block passes.  Here is
how to count them, while the other tasks keep an invariant of the shared state.

## Main definitions

* `Async.Keeps I x` : the block keeps the invariant `I`, however it ends.
* `Async.Passes I n x Q` : the block keeps `I`; it passes `n` await points and ends as `Q` says,
  unless its timer fires before.

## Main results

One rule for each building block: `Keeps.bind`, `Keeps.lock`, `Passes.bind`, `Passes.lock`, …
-/

namespace XStack

variable {σ ε π α β : Type}

namespace World

/-- The state satisfies `I`, and the other tasks keep `I`. -/
structure Safe (I : σ → Prop) (w : World σ) : Prop where
  state : I w.state
  others : ∀ n s, I s → I (w.others n s)

/-- Nothing but the state and the clock has changed, and the state satisfies `I`. -/
structure Follows (I : σ → Prop) (w w' : World σ) : Prop where
  state : I w'.state
  deadline : w'.deadline = w.deadline
  others : w'.others = w.others

variable {I J : σ → Prop} {w w' w'' : World σ}

theorem Safe.follows (h : w.Safe I) : w.Follows I w := ⟨h.state, rfl, rfl⟩

theorem Safe.next (h : w.Safe I) (hw : w.Follows I w') : w'.Safe I :=
  ⟨hw.state, by rw [hw.others]; exact h.others⟩

theorem Follows.trans (h : w.Follows I w') (h' : w'.Follows J w'') : w.Follows J w'' :=
  ⟨h'.state, h'.deadline.trans h.deadline, h'.others.trans h.others⟩

theorem expired_iff : w.expired = true ↔ ∃ d, w.deadline = some d ∧ d ≤ w.now := by
  cases hd : w.deadline <;> simp [expired, hd]

end World

namespace Async

variable {I : σ → Prop} {x : Async σ ε π α} {f : α → Async σ ε π β} {n m : ℕ}

theorem bind_assoc {γ : Type} (x : Async σ ε π α) (f : α → Async σ ε π β)
    (g : β → Async σ ε π γ) : x >>= f >>= g = x >>= fun a => f a >>= g := by
  funext w
  rw [bind_apply, bind_apply, bind_apply]
  rcases x w with ⟨_ | a, w'⟩
  · rfl
  · rw [← bind_apply]

theorem ofExcept_apply (y : Except ε α) (w : World σ) :
    (ofExcept y : Async σ ε π α) w = (match y with
      | .ok a => .ok a
      | .error e => .error (.error e), w) := by
  cases y <;> rfl

theorem ofExcept_bind_congr {y : Except ε α} {f g : α → Async σ ε π β}
    (h : ∀ a, y = .ok a → f a = g a) :
    (ofExcept y >>= f : Async σ ε π β) = ofExcept y >>= g := by
  funext w
  rw [bind_apply, bind_apply, ofExcept_apply]
  cases y with
  | error e => rfl
  | ok a => simp only [h a rfl]

/-! ### Invariants -/

/-- Among tasks that keep `I`, the block keeps `I`. -/
def Keeps (I : σ → Prop) (x : Async σ ε π α) : Prop :=
  ∀ w : World σ, w.Safe I → w.Follows I (x w).2

namespace Keeps

theorem pure (a : α) : Keeps I (Pure.pure a : Async σ ε π α) := fun _ h => h.follows

theorem fail (e : ε) : Keeps I (Async.fail e : Async σ ε π α) := fun _ h => h.follows

theorem abort (reason : π) : Keeps I (Async.abort reason : Async σ ε π α) := fun _ h => h.follows

theorem ofExcept (y : Except ε α) : Keeps I (Async.ofExcept y : Async σ ε π α) := by
  cases y with
  | ok a => exact pure a
  | error e => exact fail e

theorem modify {g : σ → σ} (hg : ∀ s, I s → I (g s)) :
    Keeps I (Async.modify g : Async σ ε π Unit) := fun _ h => ⟨hg _ h.state, rfl, rfl⟩

theorem settle (hx : x.Keeps I) : x.settle.Keeps I := by
  intro w h
  have hw := hx w h
  have hs : (x.settle w).2 = (x w).2 := by
    unfold Async.settle
    rcases x w with ⟨(_ | _ | _) | a, w'⟩ <;> rfl
  rwa [hs]

theorem timeout (t : Option ℕ) (hx : x.Keeps I) : (Async.timeout t x).Keeps I := by
  intro w h
  have hw := hx { w with deadline := earlier w.deadline (t.map (w.now + ·)) } ⟨h.state, h.others⟩
  unfold Async.timeout
  rcases hxw : x { w with deadline := earlier w.deadline (t.map (w.now + ·)) } with
    ⟨(_ | _ | _) | a, w'⟩ <;> rw [hxw] at hw
  · exact ⟨hw.state, rfl, hw.others⟩
  · exact ⟨hw.state, rfl, hw.others⟩
  · simp only
    split <;> exact ⟨hw.state, rfl, hw.others⟩
  · exact ⟨hw.state, rfl, hw.others⟩

/-- What follows a block has to keep the invariant only for the answers that the block has. -/
theorem bind_may (hx : x.Keeps I) (hf : ∀ a, x.May a → (f a).Keeps I) : (x >>= f).Keeps I := by
  intro w h
  have hw := hx w h
  rw [bind_apply]
  rcases hxw : x w with ⟨_ | a, w'⟩ <;> rw [hxw] at hw
  · exact hw
  · exact hw.trans (hf a ⟨w, w', hxw⟩ w' (h.next hw))

theorem bind (hx : x.Keeps I) (hf : ∀ a, (f a).Keeps I) : (x >>= f).Keeps I :=
  hx.bind_may fun a _ => hf a

theorem await : Keeps I (Async.await : Async σ ε π Unit) := by
  intro w h
  unfold Async.await
  split
  · exact h.follows
  · exact ⟨h.others _ _ h.state, rfl, rfl⟩

theorem lock {g : σ → Except π (α × σ)} (hg : ∀ s a s', I s → g s = .ok (a, s') → I s') :
    Keeps I (Async.lock g : Async σ ε π α) := by
  refine await.bind fun _ w h => ?_
  rcases hgw : g w.state with reason | ⟨a, s'⟩
  · exact h.follows
  · exact ⟨hg _ _ _ h.state hgw, rfl, rfl⟩

end Keeps

theorem bind_ok {w w' : World σ} {b : β} (h : (x >>= f) w = (.ok b, w')) :
    ∃ a w₁, x w = (.ok a, w₁) ∧ f a w₁ = (.ok b, w') := by
  rw [bind_apply] at h
  rcases hx : x w with ⟨_ | a, w₁⟩ <;> rw [hx] at h
  · cases h
  · exact ⟨a, w₁, rfl, h⟩

theorem lock_ok {g : σ → Except π (α × σ)} {w w' : World σ} {a : α} (hw : w.Safe I)
    (h : (lock g : Async σ ε π α) w = (.ok a, w')) : ∃ s, I s ∧ g s = .ok (a, w'.state) := by
  obtain ⟨u, w₁, hawait, h⟩ := bind_ok h
  have hs : I w₁.state := by
    have hkeeps := Keeps.await (ε := ε) (π := π) w hw
    rw [hawait] at hkeeps
    exact hkeeps.state
  refine ⟨w₁.state, hs, ?_⟩
  rcases hg : g w₁.state with reason | ⟨b, s'⟩ <;> simp only [hg] at h <;> cases h
  rfl

theorem lock_bind_dropped {g : σ → Except π (α × σ)} {w : World σ} (hw : w.expired = true) :
    (lock g >>= f : Async σ ε π β) w = (.error .cancelled, w) := by
  have hawait : (await : Async σ ε π Unit) w = (.error .cancelled, w) := by rw [await, if_pos hw]
  have hlock : (lock g : Async σ ε π α) w = (.error .cancelled, w) :=
    (bind_apply await _ w).trans (by rw [hawait])
  rw [bind_apply, hlock]

/-- What the first use of a mutex brings about, a block brings about that keeps it from there on. -/
theorem lock_bind_follows {g : σ → Except π (α × σ)} {w : World σ} (hw : w.expired = false)
    (hothers : ∀ n s, I s → I (w.others n s)) (hg : ∀ s, ∃ a s', g s = .ok (a, s') ∧ I s')
    (hf : ∀ a, (f a).Keeps I) : w.Follows I ((lock g >>= f : Async σ ε π β) w).2 := by
  obtain ⟨a, s', hgw, hs'⟩ := hg (w.others w.now w.state)
  let w₁ : World σ := { w with now := w.now + 1, state := s' }
  have hawait : (await : Async σ ε π Unit) w =
      (.ok (), { w with now := w.now + 1, state := w.others w.now w.state }) := by
    rw [await, if_neg (by simp [hw])]
  have hlock : (lock g : Async σ ε π α) w = (.ok a, w₁) :=
    (bind_apply await _ w).trans (by rw [hawait]; simp only [hgw, w₁])
  have hfirst : w.Follows I w₁ := ⟨hs', rfl, rfl⟩
  rw [bind_apply, hlock]
  exact hfirst.trans (hf a w₁ ⟨hs', hothers⟩)

/-! ### Counting -/

/-- The answer or failure of a block that has come to its end. -/
def ended : Except ε α → Except (Stop ε π) α
  | .ok a => .ok a
  | .error e => .error (.error e)

/-- The block has been dropped at one of its first `n` await points. -/
structure DroppedBy (I : σ → Prop) (n : ℕ) (w w' : World σ) : Prop where
  follows : w.Follows I w'
  expired : w'.expired = true
  early : w'.now < w.now + n

/-- The block has passed `n` await points, and its timer has not fired. -/
structure PassedBy (I : σ → Prop) (n : ℕ) (w w' : World σ) : Prop where
  follows : w.Follows I w'
  now_eq : w'.now = w.now + n
  in_time : ∀ d, w.deadline = some d → ∀ k < n, w.now + k < d

/-- Among tasks that keep `I`, the block keeps `I`; it passes `n` await points and ends as `Q` says,
unless it is dropped before. -/
def Passes (I : σ → Prop) (n : ℕ) (x : Async σ ε π α) (Q : Except ε α → Prop) : Prop :=
  ∀ w : World σ, w.Safe I →
    (∃ w', x w = (.error .cancelled, w') ∧ DroppedBy I n w w') ∨
    ∃ r w', x w = (ended r, w') ∧ PassedBy I n w w' ∧ Q r

theorem DroppedBy.trans {w w' w'' : World σ} (h : PassedBy I n w w') (h' : DroppedBy I m w' w'') :
    DroppedBy I (n + m) w w'' := by
  refine ⟨h.follows.trans h'.follows, h'.expired, ?_⟩
  have hnow := h.now_eq
  have hearly := h'.early
  omega

theorem DroppedBy.mono {w w' : World σ} (h : DroppedBy I n w w') (hnm : n ≤ m) :
    DroppedBy I m w w' := ⟨h.follows, h.expired, Nat.lt_of_lt_of_le h.early (by omega)⟩

theorem PassedBy.trans {w w' w'' : World σ} (h : PassedBy I n w w') (h' : PassedBy I m w' w'') :
    PassedBy I (n + m) w w'' := by
  have hnow := h.now_eq
  refine ⟨h.follows.trans h'.follows, ?_, fun d hd k hk => ?_⟩
  · have hnow' := h'.now_eq
    omega
  · by_cases hkn : k < n
    · exact h.in_time d hd k hkn
    · have hlate := h'.in_time d (h.follows.deadline.trans hd) (k - n) (by omega)
      omega

namespace Passes

variable {P : Except ε α → Prop} {Q : Except ε β → Prop}

theorem of_eq {r : Except ε α} (h : ∀ w, x w = (ended r, w)) (hr : P r) : Passes I 0 x P :=
  fun w hw => .inr ⟨r, w, h w, ⟨hw.follows, rfl, fun _ _ _ hk => absurd hk (Nat.not_lt_zero _)⟩, hr⟩

theorem pure {a : α} (ha : P (.ok a)) : Passes I 0 (Pure.pure a : Async σ ε π α) P :=
  of_eq (fun _ => rfl) ha

theorem fail {e : ε} (he : P (.error e)) : Passes I 0 (Async.fail e : Async σ ε π α) P :=
  of_eq (fun _ => rfl) he

theorem ofExcept {y : Except ε α} (hy : P y) : Passes I 0 (Async.ofExcept y : Async σ ε π α) P := by
  cases y with
  | ok a => exact pure hy
  | error e => exact fail hy

theorem await {P : Except ε Unit → Prop} (hP : P (.ok ())) :
    Passes I 1 (Async.await : Async σ ε π Unit) P := by
  intro w hw
  unfold Async.await
  by_cases hexpired : w.expired = true
  · rw [if_pos hexpired]
    exact .inl ⟨w, rfl, hw.follows, hexpired, by omega⟩
  · rw [if_neg hexpired]
    refine .inr ⟨.ok (), _, rfl, ⟨⟨hw.others _ _ hw.state, rfl, rfl⟩, rfl, fun d hd k hk => ?_⟩, hP⟩
    rw [World.expired_iff] at hexpired
    have hlate : ¬ d ≤ w.now := fun hle => hexpired ⟨d, hd, hle⟩
    omega

/-- A chain of blocks; if the first one may fail, the others pass no await points. -/
theorem bind (hx : x.Passes I n P) (hf : ∀ a, P (.ok a) → (f a).Passes I m Q)
    (he : ∀ e, P (.error e) → m = 0 ∧ Q (.error e)) : (x >>= f).Passes I (n + m) Q := by
  intro w hw
  rcases hx w hw with ⟨w₁, hxw, hdropped⟩ | ⟨r, w₁, hxw, hpassed, hP⟩
  · exact .inl ⟨w₁, by rw [bind_apply, hxw], hdropped.mono (by omega)⟩
  · cases r with
    | ok a =>
      rcases hf a hP w₁ (hw.next hpassed.follows) with
        ⟨w₂, hfw, hdropped⟩ | ⟨r, w₂, hfw, hpassed', hQ⟩
      · exact .inl ⟨w₂, by rw [bind_apply, hxw]; exact hfw, .trans hpassed hdropped⟩
      · exact .inr ⟨r, w₂, by rw [bind_apply, hxw]; exact hfw, hpassed.trans hpassed', hQ⟩
    | error e =>
      obtain ⟨rfl, hQ⟩ := he e hP
      exact .inr ⟨.error e, w₁, by rw [bind_apply, hxw]; rfl, hpassed, hQ⟩

theorem ofExcept_bind {y : Except ε α} {m : ℕ} (hok : ∀ a, y = .ok a → (f a).Passes I m Q)
    (he : ∀ e, y = .error e → m = 0 ∧ Q (.error e)) :
    Passes I m (Async.ofExcept y >>= f : Async σ ε π β) Q := by
  have h : Passes I (0 + m) (Async.ofExcept y >>= f : Async σ ε π β) Q :=
    (ofExcept (P := (y = ·)) rfl).bind hok he
  rwa [Nat.zero_add] at h

theorem lock {g : σ → Except π (α × σ)} (hg : ∀ s, I s → ∃ a s', g s = .ok (a, s') ∧ I s')
    (hP : ∀ a, P (.ok a)) : Passes I 1 (Async.lock g : Async σ ε π α) P := by
  refine Passes.bind (m := 0) (await (P := (· = .ok ())) rfl) (fun _ _ w hw => ?_) (by simp)
  obtain ⟨a, s', hgw, hs'⟩ := hg w.state hw.state
  simp only [hgw]
  exact .inr ⟨.ok a, _, rfl, ⟨⟨hs', rfl, rfl⟩, rfl, fun _ _ _ hk => absurd hk (Nat.not_lt_zero _)⟩,
    hP a⟩

theorem settle (hx : x.Passes I n P) :
    Passes I n x.settle fun r => ∃ r', r = .ok r' ∧ P r' := by
  intro w hw
  rcases hx w hw with ⟨w', hxw, hdropped⟩ | ⟨r, w', hxw, hpassed, hP⟩
  · exact .inl ⟨w', by simp only [Async.settle, hxw], hdropped⟩
  · refine .inr ⟨.ok r, w', ?_, hpassed, r, rfl, hP⟩
    cases r <;> simp only [Async.settle, hxw, ended]

theorem keeps (hx : x.Passes I n P) : x.Keeps I := by
  intro w hw
  rcases hx w hw with ⟨w', hxw, hdropped⟩ | ⟨r, w', hxw, hpassed, -⟩
  · rw [hxw]
    exact hdropped.follows
  · rw [hxw]
    exact hpassed.follows

theorem mono {P' : Except ε α → Prop} (hx : x.Passes I n P) (h : ∀ r, P r → P' r) :
    x.Passes I n P' := by
  intro w hw
  rcases hx w hw with hdropped | ⟨r, w', hxw, hpassed, hP⟩
  · exact .inl hdropped
  · exact .inr ⟨r, w', hxw, hpassed, h r hP⟩

end Passes

/-! ### Timers -/

/-- The surroundings of a block that runs under a timer. -/
def under (w : World σ) (t : Option ℕ) : World σ :=
  { w with deadline := earlier w.deadline (t.map (w.now + ·)) }

variable {w w' : World σ} {t : Option ℕ}

theorem timeout_state (t : Option ℕ) (x : Async σ ε π α) (w : World σ) :
    (timeout t x w).2.state = (x (under w t)).2.state := by
  unfold timeout under
  rcases x { w with deadline := earlier w.deadline (t.map (w.now + ·)) } with
    ⟨(_ | _ | _) | a, w₁⟩
  · rfl
  · rfl
  · simp only
    split <;> rfl
  · rfl

/-- A block that is dropped under its timer drops the block around it if the timer of that one has
fired too. -/
theorem timeout_dropped (hx : x (under w t) = (.error .cancelled, w')) :
    (timeout t x w).1 =
      if World.expired { w' with deadline := w.deadline } then .error .cancelled else .ok none := by
  unfold under at hx
  simp only [timeout, hx]
  split <;> rfl

theorem under_deadline {k : ℕ} (ht : t = some k) :
    ∃ d, (under w t).deadline = some d ∧ d ≤ w.now + k := by
  subst ht
  cases hd : w.deadline with
  | none => exact ⟨w.now + k, by simp [under, hd, earlier], Nat.le_refl _⟩
  | some d => exact ⟨min d (w.now + k), by simp [under, hd, earlier], Nat.min_le_right ..⟩

/-- If the timer of the block has fired and no timer further out, then it is the one that was set
for the block. -/
theorem under_expired (hd : w'.deadline = (under w t).deadline) (hw : w'.expired = true)
    (hout : World.expired { w' with deadline := w.deadline } = false) :
    ∃ k, t = some k ∧ w.now + k ≤ w'.now := by
  obtain ⟨d, hd', hle⟩ := World.expired_iff.1 hw
  -- a timer further out has not fired yet
  have hlate : ∀ d, w.deadline = some d → w'.now < d := by
    refine fun d hd => Nat.lt_of_not_le fun hle => ?_
    have hexpired : World.expired { w' with deadline := w.deadline } = true :=
      World.expired_iff.2 ⟨d, hd, hle⟩
    rw [hout] at hexpired
    cases hexpired
  rw [hd] at hd'
  cases ht : t with
  | none =>
    cases hwd : w.deadline with
    | none => simp [under, ht, hwd, earlier] at hd'
    | some d' =>
      have := hlate d' hwd
      simp only [under, ht, hwd, earlier, Option.map_none, Option.some.injEq] at hd'
      omega
  | some k =>
    refine ⟨k, rfl, ?_⟩
    cases hwd : w.deadline with
    | none =>
      simp only [under, ht, hwd, earlier, Option.map_some, Option.some.injEq] at hd'
      omega
    | some d' =>
      have := hlate d' hwd
      simp only [under, ht, hwd, earlier, Option.map_some, Option.some.injEq] at hd'
      omega

end Async

end XStack
