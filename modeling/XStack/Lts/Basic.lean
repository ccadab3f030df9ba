import Mathlib.Data.List.Induction
import Mathlib.Data.List.Perm.Basic
import Mathlib.Order.WellFounded

/-!
# Labelled transition systems and their histories

The concurrent parts of the network stack (the connection pool, the stream dispatcher, the
routing table with its ping tasks, the recursive lookup) are modelled as transition systems
whose labels record the operation that was performed *and* the answer it gave.  A run is then
described by its **history**, the list of its labels, oldest first, and a guarantee such as
"`accept` never returns `x` unless `y` happened before" is a statement about histories.

## Main definitions

* `Lts σ ℓ` : states `σ`, labels `ℓ`, initial states and a transition relation.
* `Lts.Run A h s` : the history `h` leads from an initial state to `s`.
* `Lts.RunWhere A C h s` : the same, where every step taken meets the condition `C`, which may
  look at the history so far, the state before the step and the label.
* `Lts.Reachable A s`.
* `Lts.startingAt A s` : the same system, started in `s`.
* `Lts.within A P` : the same system, as long as `P` holds.
* `Lts.withGhost A g₀ f` : the same system with a ghost variable.
* `Lts.Infinite A f e` : an infinite run.

## Main results

* `Lts.Run.invariant`, `Lts.Reachable.invariant` : the induction rule, for predicates on
  histories and states and for predicates on states.
* `Lts.RunWhere.invariant` : the same for runs whose steps meet a condition.
* `Lts.RunWhere.congr` : two conditions that agree on the steps of all runs.
* `Lts.RunWhere.visits_iff` : a condition on the steps that says what the states visited are like.
* `Lts.RunWhere.withGhost`, `Lts.RunWhere.of_withGhost` : a ghost variable changes nothing.
* `Lts.Infinite.absurd` : what decreases with every step cannot do so forever.
* `Lts.Run.suffix` : the end of a run is a run.
* `Lts.Run.split`, `Lts.RunWhere.split` : a step in the middle of a run starts in a state that
  the history before it reaches.
* `tasks_perm`, `tasks_set_perm` : what one task of a pool does leaves the others alone.
-/

namespace XStack

/-- A labelled transition system.  A label names an operation together with its answer. -/
structure Lts (σ ℓ : Type*) where
  /-- The initial states. -/
  init : σ → Prop
  /-- `step s l s'` : in state `s` the operation and answer `l` lead to `s'`. -/
  step : σ → ℓ → σ → Prop

namespace Lts

variable {σ ℓ : Type*} (A : Lts σ ℓ)

/-- `A.Run h s` : performing the labels of `h` in order leads from an initial state to `s`. -/
inductive Run : List ℓ → σ → Prop
  | start {s : σ} : A.init s → Run [] s
  | snoc {h : List ℓ} {s s' : σ} {l : ℓ} : Run h s → A.step s l s' → Run (h ++ [l]) s'

/-- A run all of whose steps meet the condition `C`. -/
inductive RunWhere (C : List ℓ → σ → ℓ → Prop) : List ℓ → σ → Prop
  | start {s : σ} : A.init s → RunWhere C [] s
  | snoc {h : List ℓ} {s s' : σ} {l : ℓ} : RunWhere C h s → C h s l → A.step s l s' →
      RunWhere C (h ++ [l]) s'

/-- Some run ends in `s`. -/
def Reachable (s : σ) : Prop := ∃ h, A.Run h s

/-- The same system, started in the state `s`. -/
def startingAt (s : σ) : Lts σ ℓ := { A with init := (· = s) }

/-- The same system, as long as `P` holds. -/
def within (P : σ → Prop) : Lts σ ℓ where
  init s := A.init s ∧ P s
  step s l s' := A.step s l s' ∧ P s'

/-- The same system with a ghost variable, which every step updates and no step depends on. -/
def withGhost {γ : Type*} (g₀ : γ) (f : σ → γ → ℓ → γ) : Lts (σ × γ) ℓ where
  init s := A.init s.1 ∧ s.2 = g₀
  step s l s' := A.step s.1 l s'.1 ∧ s'.2 = f s.1 s.2 l

variable {A}

/-- **Induction over runs.**  A predicate on histories and states holds along every run if it
holds initially and every step of a run preserves it. -/
theorem Run.invariant {I : List ℓ → σ → Prop} {h : List ℓ} {s : σ} (hr : A.Run h s)
    (h₀ : ∀ s, A.init s → I [] s)
    (hstep : ∀ h s l s', A.Run h s → I h s → A.step s l s' → I (h ++ [l]) s') : I h s := by
  induction hr with
  | start hi => exact h₀ _ hi
  | snoc hr hst ih => exact hstep _ _ _ _ hr ih hst

theorem Reachable.start {s : σ} (h : A.init s) : A.Reachable s := ⟨[], .start h⟩

theorem Reachable.snoc {s s' : σ} {l : ℓ} (h : A.Reachable s) (hst : A.step s l s') :
    A.Reachable s' := by
  obtain ⟨h, hr⟩ := h
  exact ⟨_, hr.snoc hst⟩

theorem Reachable.invariant {I : σ → Prop} {s : σ} (h : A.Reachable s)
    (h₀ : ∀ s, A.init s → I s) (hstep : ∀ s l s', I s → A.step s l s' → I s') : I s := by
  obtain ⟨h, hr⟩ := h
  exact hr.invariant (I := fun _ s => I s) h₀ fun _ _ _ _ _ hi hst => hstep _ _ _ hi hst

theorem Run.foldlM {f : σ → ℓ → Option σ} (hf : ∀ s l s', f s l = some s' → A.step s l s')
    {h ls : List ℓ} {s s' : σ} (hr : A.Run h s) (hls : ls.foldlM f s = some s') :
    A.Run (h ++ ls) s' := by
  induction ls generalizing h s with
  | nil =>
    cases hls
    simpa using hr
  | cons l ls ih =>
    obtain ⟨s₁, hst, hls⟩ := Option.bind_eq_some_iff.1 hls
    simpa using ih (hr.snoc (hf _ _ _ hst)) hls

/-- What is reached from a reachable state is reachable, whatever holds on the way. -/
theorem Reachable.within {P : σ → Prop} {s₁ s : σ} {h : List ℓ} (h₁ : A.Reachable s₁)
    (hr : ((A.startingAt s₁).within P).Run h s) : A.Reachable s ∧ P s := by
  induction hr with
  | start hi => exact ⟨hi.1 ▸ h₁, hi.2⟩
  | snoc _ hst ih => exact ⟨ih.1.snoc hst.1, hst.2⟩

theorem run_concat_iff {h : List ℓ} {l : ℓ} {s' : σ} :
    A.Run (h ++ [l]) s' ↔ ∃ s, A.Run h s ∧ A.step s l s' := by
  constructor
  · intro hr
    generalize hk : h ++ [l] = k at hr
    cases hr with
    | start => simp at hk
    | snoc hr hst =>
      obtain ⟨rfl, hl⟩ := List.append_inj' hk rfl
      cases hl
      exact ⟨_, hr, hst⟩
  · rintro ⟨s, hr, hst⟩
    exact hr.snoc hst

/-- A step in the middle of a run starts in a state reached by the history before it. -/
theorem Run.split {pre post : List ℓ} {l : ℓ} {s : σ} (hr : A.Run (pre ++ l :: post) s) :
    ∃ s₁ s₂, A.Run pre s₁ ∧ A.step s₁ l s₂ := by
  induction post using List.reverseRecOn generalizing s with
  | nil =>
    obtain ⟨s₁, h₁, hst⟩ := run_concat_iff.1 hr
    exact ⟨s₁, s, h₁, hst⟩
  | append_singleton post m ih =>
    rw [← List.cons_append, ← List.append_assoc] at hr
    obtain ⟨s', hr', -⟩ := run_concat_iff.1 hr
    exact ih hr'

theorem Run.suffix {pre post : List ℓ} {s : σ} (hr : A.Run (pre ++ post) s) :
    ∃ s₁, A.Run pre s₁ ∧ (A.startingAt s₁).Run post s := by
  induction post using List.reverseRecOn generalizing s with
  | nil => exact ⟨s, by simpa using hr, .start rfl⟩
  | append_singleton post l ih =>
    rw [← List.append_assoc] at hr
    obtain ⟨s', hr', hst⟩ := run_concat_iff.1 hr
    obtain ⟨s₁, hpre, hpost⟩ := ih hr'
    exact ⟨s₁, hpre, hpost.snoc hst⟩

theorem Run.runWhere {P : ℓ → Prop} {h : List ℓ} {s : σ} (hr : A.Run h s) (hP : ∀ l ∈ h, P l) :
    A.RunWhere (fun _ _ l => P l) h s := by
  induction hr with
  | start hi => exact .start hi
  | snoc _ hst ih =>
    exact (ih fun l hl => hP l (List.mem_append_left _ hl)).snoc (hP _ List.mem_concat_self) hst

namespace RunWhere

variable {C : List ℓ → σ → ℓ → Prop}

theorem run {h : List ℓ} {s : σ} (hr : A.RunWhere C h s) : A.Run h s := by
  induction hr with
  | start hi => exact .start hi
  | snoc _ _ hst ih => exact ih.snoc hst

/-- **Induction over the runs whose steps meet a condition.** -/
theorem invariant {I : List ℓ → σ → Prop} {h : List ℓ} {s : σ} (hr : A.RunWhere C h s)
    (h₀ : ∀ s, A.init s → I [] s)
    (hstep : ∀ h s l s', A.RunWhere C h s → I h s → C h s l → A.step s l s' → I (h ++ [l]) s') :
    I h s := by
  induction hr with
  | start hi => exact h₀ _ hi
  | snoc hr hc hst ih => exact hstep _ _ _ _ hr ih hc hst

/-- Two conditions that agree on the steps of all runs. -/
theorem congr {D : List ℓ → σ → ℓ → Prop}
    (hiff : ∀ h s l s', A.Run h s → A.step s l s' → (C h s l ↔ D h s l)) {h : List ℓ} {s : σ} :
    A.RunWhere C h s ↔ A.RunWhere D h s := by
  constructor
  · intro hr
    induction hr with
    | start hi => exact .start hi
    | snoc hr hc hst ih => exact ih.snoc ((hiff _ _ _ _ hr.run hst).1 hc) hst
  · intro hr
    induction hr with
    | start hi => exact .start hi
    | snoc hr hd hst ih => exact ih.snoc ((hiff _ _ _ _ hr.run hst).2 hd) hst

theorem concat_inv {h : List ℓ} {l : ℓ} {s' : σ} (hr : A.RunWhere C (h ++ [l]) s') :
    ∃ s, A.RunWhere C h s ∧ C h s l ∧ A.step s l s' := by
  generalize hk : h ++ [l] = k at hr
  cases hr with
  | start => simp at hk
  | snoc hr hc hst =>
    obtain ⟨rfl, hl⟩ := List.append_inj' hk rfl
    cases hl
    exact ⟨_, hr, hc, hst⟩

/-- **Conditions and the states they lead to.**  If, from a state that satisfies `I`, the steps that
meet the condition are the ones that lead to a state that satisfies `I`, then the runs all of whose
steps meet the condition are the runs all of whose states satisfy `I`. -/
theorem visits_iff {I : σ → Prop} {h : List ℓ} {s : σ} (h₀ : ∀ s, A.init s → I s)
    (keeps : ∀ h s l s', A.RunWhere C h s → I s → C h s l → A.step s l s' → I s')
    (needs : ∀ h s l s', A.Run h s → I s → A.step s l s' → I s' → C h s l) :
    A.RunWhere C h s ↔ A.RunWhere (fun _ s _ => I s) h s ∧ I s := by
  constructor
  · intro hr
    induction hr with
    | start hi => exact ⟨.start hi, h₀ _ hi⟩
    | snoc hr hc hst ih => exact ⟨.snoc ih.1 ih.2 hst, keeps _ _ _ _ hr ih.2 hc hst⟩
  · rintro ⟨hr, hI⟩
    induction hr with
    | start hi => exact .start hi
    | snoc hr hs hst ih => exact .snoc (ih hs) (needs _ _ _ _ hr.run hs hst hI) hst

theorem init_of_visits {I : σ → Prop} {h : List ℓ} {s : σ} (hr : A.RunWhere (fun _ s _ => I s) h s)
    (hs : I s) : ∃ s₀, A.init s₀ ∧ I s₀ := by
  induction hr with
  | start hi => exact ⟨_, hi, hs⟩
  | snoc _ hc _ ih => exact ih hc

/-- Every run is the run of a system with a ghost variable. -/
theorem withGhost {γ : Type*} (g₀ : γ) (f : σ → γ → ℓ → γ) {h : List ℓ} {s : σ}
    (hr : A.RunWhere C h s) :
    ∃ g, (A.withGhost g₀ f).RunWhere (fun h s l => C h s.1 l) h (s, g) := by
  induction hr with
  | start hi => exact ⟨g₀, .start ⟨hi, rfl⟩⟩
  | snoc _ hc hst ih =>
    obtain ⟨g, hg⟩ := ih
    exact ⟨f _ g _, hg.snoc hc ⟨hst, rfl⟩⟩

theorem of_withGhost {γ : Type*} {g₀ : γ} {f : σ → γ → ℓ → γ} {h : List ℓ} {s : σ × γ}
    (hr : (A.withGhost g₀ f).RunWhere (fun h s l => C h s.1 l) h s) : A.RunWhere C h s.1 := by
  induction hr with
  | start hi => exact .start hi.1
  | snoc _ hc hst ih => exact ih.snoc hc hst.1

theorem split {pre post : List ℓ} {l : ℓ} {s : σ} (hr : A.RunWhere C (pre ++ l :: post) s) :
    ∃ s₁ s₂, A.RunWhere C pre s₁ ∧ C pre s₁ l ∧ A.step s₁ l s₂ := by
  induction post using List.reverseRecOn generalizing s with
  | nil =>
    obtain ⟨s₁, h₁, hc, hst⟩ := concat_inv hr
    exact ⟨s₁, s, h₁, hc, hst⟩
  | append_singleton post m ih =>
    rw [← List.cons_append, ← List.append_assoc] at hr
    obtain ⟨s', hr', -, -⟩ := concat_inv hr
    exact ih hr'

end RunWhere

/-- An infinite run: the states that it visits, and its labels. -/
structure Infinite (A : Lts σ ℓ) (f : ℕ → σ) (e : ℕ → ℓ) : Prop where
  /-- It starts in an initial state. -/
  init : A.init (f 0)
  /-- Each state leads to the next one. -/
  step : ∀ n, A.step (f n) (e n) (f (n + 1))

namespace Infinite

variable {f : ℕ → σ} {e : ℕ → ℓ}

theorem run (hr : A.Infinite f e) (n : ℕ) : A.Run ((List.range n).map e) (f n) := by
  induction n with
  | zero => exact .start hr.init
  | succ n ih =>
    rw [List.range_succ, List.map_append]
    exact ih.snoc (hr.step n)

/-- A measure cannot decrease forever. -/
theorem absurd {β : Type*} [LT β] [WellFoundedLT β] (_ : A.Infinite f e) (μ : σ → β)
    (hlt : ∀ n, μ (f (n + 1)) < μ (f n)) : False := by
  have hwf : WellFounded fun a b : β => a < b := wellFounded_lt
  exact (wellFounded_iff_isEmpty_descending_chain.1 hwf).false ⟨fun n => μ (f n), hlt⟩

end Infinite

end Lts

/-! ### Pools of tasks

A pool is a list of tasks.  When the one with index `i` goes on, the others stay as they are. -/

section Tasks

variable {τ : Type*} {tasks : List τ} {i : ℕ} {task : τ}

theorem tasks_perm (h : tasks[i]? = some task) : tasks.Perm (task :: tasks.eraseIdx i) := by
  obtain ⟨hi, rfl⟩ := List.getElem?_eq_some_iff.1 h
  exact (List.getElem_cons_eraseIdx_perm hi).symm

theorem tasks_set_perm (h : tasks[i]? = some task) (task' : τ) :
    (tasks.set i task').Perm (task' :: tasks.eraseIdx i) :=
  List.set_perm_cons_eraseIdx (List.getElem?_eq_some_iff.1 h).1 task'

end Tasks

end XStack
