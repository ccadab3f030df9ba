import XStack.Lts.Basic

/-!
# Refinement and progress

Two ways to use one transition system to speak about another, or about itself.

A **simulation** relates the states of two systems so that every step of the first is matched by
steps of the second, possibly by none; then whatever is known of the runs of the second system
carries over to the first.

`A.Leads P Q s` says that from `s` some steps that satisfy `P` lead to a state that satisfies `Q`:
the party that takes these steps can get there on its own, when the others do nothing.

## Main definitions

* `Lts.Simulation A C B f R` : a forward simulation, for the runs of `A` whose steps meet `C`.
* `Lts.Leads A P Q s`.

## Main results

* `Lts.Simulation.run` : every run of the first system is matched by a run of the second.
* `Lts.Leads.trans`, `Lts.Leads.of_measure` : progress in stages, and by a decreasing measure.
* `Lts.Leads.run` : the run that the steps make.
-/

namespace XStack

namespace Lts

variable {σ τ ℓ m : Type*}

/-- A run from the state that another run has reached continues it. -/
theorem Run.append {A : Lts σ ℓ} {h ls : List ℓ} {s s' : σ} (hr : A.Run h s)
    (hls : (A.startingAt s).Run ls s') : A.Run (h ++ ls) s' := by
  induction hls with
  | start hi =>
    cases hi
    simpa using hr
  | snoc _ hst ih =>
    rw [← List.append_assoc]
    exact ih.snoc hst

theorem RunWhere.imp {A : Lts σ ℓ} {C D : List ℓ → σ → ℓ → Prop} {h : List ℓ} {s : σ}
    (hr : A.RunWhere C h s) (hCD : ∀ h s l, C h s l → D h s l) : A.RunWhere D h s := by
  induction hr with
  | start hi => exact .start hi
  | snoc _ hc hst ih => exact ih.snoc (hCD _ _ _ hc) hst

/-- A forward simulation: every step `l` of `A` is matched by the steps `f l` of `B`. -/
structure Simulation (A : Lts σ ℓ) (C : List ℓ → σ → ℓ → Prop) (B : Lts τ m) (f : ℓ → List m)
    (R : σ → τ → Prop) : Prop where
  init : ∀ s, A.init s → ∃ t, B.init t ∧ R s t
  step : ∀ h s l s' t, A.RunWhere C h s → C h s l → A.step s l s' → R s t →
    ∃ t', (B.startingAt t).Run (f l) t' ∧ R s' t'

/-- **Simulations carry runs over.** -/
theorem Simulation.run {A : Lts σ ℓ} {C : List ℓ → σ → ℓ → Prop} {B : Lts τ m} {f : ℓ → List m}
    {R : σ → τ → Prop} (hsim : Simulation A C B f R) {h : List ℓ} {s : σ} (hr : A.RunWhere C h s) :
    ∃ t, B.Run (h.flatMap f) t ∧ R s t := by
  induction hr with
  | start hi =>
    obtain ⟨t, ht, hR⟩ := hsim.init _ hi
    exact ⟨t, .start ht, hR⟩
  | snoc hr hc hst ih =>
    obtain ⟨t, hB, hR⟩ := ih
    obtain ⟨t', hls, hR'⟩ := hsim.step _ _ _ _ t hr hc hst hR
    exact ⟨t', by simpa using hB.append hls, hR'⟩

theorem Run.none {A : Lts σ ℓ} {s : σ} : (A.startingAt s).Run [] s := .start rfl

theorem Run.one {A : Lts σ ℓ} {s s' : σ} {l : ℓ} (hst : A.step s l s') :
    (A.startingAt s).Run [l] s' := .snoc .none hst

/-- Some steps that satisfy `P` lead from a state to one that satisfies `Q`. -/
inductive Leads (A : Lts σ ℓ) (P : σ → ℓ → Prop) (Q : σ → Prop) : σ → Prop
  | here {s : σ} : Q s → Leads A P Q s
  | step {s s' : σ} {l : ℓ} : P s l → A.step s l s' → Leads A P Q s' → Leads A P Q s

namespace Leads

variable {A : Lts σ ℓ} {P : σ → ℓ → Prop} {Q Q' : σ → Prop} {s : σ}

/-- **Progress in stages.** -/
theorem trans (h : A.Leads P Q s) (hQ : ∀ s, Q s → A.Leads P Q' s) : A.Leads P Q' s := by
  induction h with
  | here hq => exact hQ _ hq
  | step hp hst _ ih => exact .step hp hst ih

theorem mono (h : A.Leads P Q s) (hQ : ∀ s, Q s → Q' s) : A.Leads P Q' s :=
  h.trans fun s hq => .here (hQ s hq)

theorem single {s' : σ} {l : ℓ} (hp : P s l) (hst : A.step s l s') (hq : Q s') : A.Leads P Q s :=
  .step hp hst (.here hq)

/-- **Progress by a measure.**  As long as the goal is not reached, there is a step that keeps the
invariant and decreases the measure. -/
theorem of_measure {I : σ → Prop} (μ : σ → ℕ)
    (hstep : ∀ s, I s → Q s ∨ ∃ l s', P s l ∧ A.step s l s' ∧ I s' ∧ μ s' < μ s) (hs : I s) :
    A.Leads P Q s := by
  induction hn : μ s using Nat.strong_induction_on generalizing s with
  | _ n ih =>
    rcases hstep s hs with hq | ⟨l, s', hp, hst, hs', hlt⟩
    · exact .here hq
    · exact .step hp hst (ih _ (hn ▸ hlt) hs' rfl)

/-- The run that the steps make. -/
theorem run {C : List ℓ → σ → ℓ → Prop} {h : List ℓ} (hr : A.RunWhere C h s) (hl : A.Leads P Q s)
    (hP : ∀ h s l, P s l → C h s l) : ∃ ls s', A.RunWhere C (h ++ ls) s' ∧ Q s' := by
  induction hl generalizing h with
  | here hq => exact ⟨[], _, by simpa using hr, hq⟩
  | step hp hst _ ih =>
    obtain ⟨ls, s', hr', hq⟩ := ih (hr.snoc (hP _ _ _ hp) hst)
    exact ⟨_ :: ls, s', by simpa using hr', hq⟩

end Leads

end Lts

end XStack
