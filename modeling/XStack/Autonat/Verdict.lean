import Mathlib.Data.List.Perm.Basic
import XStack.Autonat.Client
import XStack.Ed25519

/-!
# The verdict of the autonat client

The client decides once: the first of the two totals to reach three, of the successes or of the
failures, gives the state, and what is reported later changes nothing.  Exactly one task passes the
verdict on, because the states before and after an outcome differ only once.

## Main definitions

* `Verdict` : what a sequence of outcomes comes to.
* `outcomes`, `natCalls` : the outcomes recorded and the calls of `set_nat` in a history.

## Main results

* `RawAutoNatClient.Counts.record` : the counters keep the verdict of what has been recorded.
* `autonat_verdict`.
-/

namespace XStack

/-- The switch has been reached. -/
def DialOutcome.isSuccess : DialOutcome → Bool
  | success _ => true
  | failure => false

/-- The number of successes, over all addresses. -/
def successes (os : List DialOutcome) : ℕ := os.countP DialOutcome.isSuccess

/-- The number of failures. -/
def failures (os : List DialOutcome) : ℕ := os.countP fun o => !o.isSuccess

/-- What a sequence of outcomes comes to: the total that reaches three first decides. -/
def Verdict (os : List DialOutcome) : AutoNAT → Prop
  | .unknown => successes os < 3 ∧ failures os < 3
  | .publicNode => ∃ p, p <+: os ∧ successes p = 3 ∧ failures p < 3
  | .nat => ∃ p, p <+: os ∧ failures p = 3 ∧ successes p < 3

variable {os : List DialOutcome} {o : DialOutcome} {v v' : AutoNAT}

theorem successes_concat : successes (os ++ [o]) = successes os + if o.isSuccess then 1 else 0 := by
  cases o <;> simp [successes, DialOutcome.isSuccess]

theorem failures_concat : failures (os ++ [o]) = failures os + if o.isSuccess then 0 else 1 := by
  cases o <;> simp [failures, DialOutcome.isSuccess]

theorem Verdict.append (h : Verdict os v) (hv : v ≠ .unknown) (os' : List DialOutcome) :
    Verdict (os ++ os') v := by
  cases v with
  | unknown => exact absurd rfl hv
  | publicNode | nat =>
    obtain ⟨p, hp, hcount⟩ := h
    exact ⟨p, hp.trans (List.prefix_append _ _), hcount⟩

theorem Verdict.not_nat (h : Verdict os .publicNode) : ¬ Verdict os .nat := by
  obtain ⟨p, hp, hsuccesses, hfailures⟩ := h
  rintro ⟨q, hq, hfailures', hsuccesses'⟩
  rcases List.prefix_or_prefix_of_prefix hp hq with hpq | hqp
  · have hle : successes p ≤ successes q := hpq.sublist.countP_le
    omega
  · have hle : failures q ≤ failures p := hqp.sublist.countP_le
    omega

theorem Verdict.unique (h : Verdict os v) (h' : Verdict os v') : v = v' := by
  have hpublic : Verdict os .unknown → ¬ Verdict os .publicNode := by
    rintro ⟨hsuccesses, -⟩ ⟨p, hp, hthree, -⟩
    have hle : successes p ≤ successes os := hp.sublist.countP_le
    omega
  have hnat : Verdict os .unknown → ¬ Verdict os .nat := by
    rintro ⟨-, hfailures⟩ ⟨p, hp, hthree, -⟩
    have hle : failures p ≤ failures os := hp.sublist.countP_le
    omega
  cases v <;> cases v'
  case publicNode.nat => exact absurd h' h.not_nat
  case nat.publicNode => exact absurd h h'.not_nat
  case unknown.publicNode => exact absurd h' (hpublic h)
  case publicNode.unknown => exact absurd h (hpublic h')
  case unknown.nat => exact absurd h' (hnat h)
  case nat.unknown => exact absurd h (hnat h')
  all_goals rfl

namespace RawAutoNatClient

variable {raw : RawAutoNatClient}

/-- The number of successes recorded. -/
def total (raw : RawAutoNatClient) : ℕ := (raw.dialSucc.iter.map Prod.snd).sum

theorem record_states (raw : RawAutoNatClient) (o : DialOutcome) :
    (raw.record o).1 = (raw.state, (raw.record o).2.state) := by
  cases o <;> rfl

theorem record_of_decided (h : raw.state ≠ .unknown) (o : DialOutcome) :
    (raw.record o).2 = raw := by
  cases o
  · exact if_neg h
  · exact if_neg h

theorem record_of_unknown (h : raw.state = .unknown) (o : DialOutcome) :
    (raw.record o).2.total = raw.total + (if o.isSuccess then 1 else 0) ∧
      (raw.record o).2.dialFailed = raw.dialFailed + if o.isSuccess then 0 else 1 := by
  cases o with
  | failure => simp [record, failed, h, DialOutcome.isSuccess, total]
  | success addr =>
    have hsum := HashMap.sum_values raw.dialSucc addr
    simp only [record, success, h, ↓reduceIte, DialOutcome.isSuccess, total]
    cases hget : raw.dialSucc.get addr with
    | none =>
      rw [hget, Option.getD_none, Nat.zero_add] at hsum
      exact ⟨by rw [HashMap.sum_values_insert, hsum, Nat.add_comm], rfl⟩
    | some counter =>
      rw [hget, Option.getD_some] at hsum
      exact ⟨by rw [HashMap.sum_values_insert, hsum, Nat.add_right_comm], rfl⟩

/-- The counters agree with what has been recorded. -/
structure Counts (raw : RawAutoNatClient) (os : List DialOutcome) : Prop where
  verdict : Verdict os raw.state
  total : raw.state = .unknown → raw.total = successes os
  dialFailed : raw.state = .unknown → raw.dialFailed = failures os

/-- **One outcome**: the counters keep the verdict of what has been recorded. -/
theorem Counts.record (h : raw.Counts os) (o : DialOutcome) :
    (raw.record o).2.Counts (os ++ [o]) := by
  by_cases hraw : raw.state = .unknown
  · obtain ⟨htotal, hfailed⟩ := record_of_unknown hraw o
    rw [h.total hraw, ← successes_concat] at htotal
    rw [h.dialFailed hraw, ← failures_concat] at hfailed
    refine ⟨?_, fun _ => htotal, fun _ => hfailed⟩
    have hbefore : successes os < 3 ∧ failures os < 3 := by
      have hverdict := h.verdict
      rwa [hraw] at hverdict
    have hs := @successes_concat os o
    have hf := @failures_concat os o
    show Verdict _ (if 2 < (raw.record o).2.total then _ else
      if 2 < (raw.record o).2.dialFailed then _ else _)
    rw [htotal, hfailed]
    split_ifs with hpublic hnat
    · -- the third success
      refine ⟨os ++ [o], List.prefix_rfl, ?_, ?_⟩ <;> split_ifs at hs hf <;> omega
    · -- the third failure
      refine ⟨os ++ [o], List.prefix_rfl, ?_, ?_⟩ <;> split_ifs at hs hf <;> omega
    · exact ⟨by omega, by omega⟩
  · rw [record_of_decided hraw]
    exact ⟨h.verdict.append hraw [o], fun hstate => absurd hstate hraw,
      fun hstate => absurd hstate hraw⟩

end RawAutoNatClient

/-! ### The tasks -/

/-- The outcomes that are recorded in a history, in this order. -/
def outcomes (h : List AutoNatOp) : List DialOutcome :=
  h.filterMap fun
    | .task _ (.recorded o) => some o
    | _ => none

/-- The calls of `set_nat` in a history, in this order. -/
def natCalls (h : List AutoNatOp) : List AutoNAT :=
  h.filterMap fun
    | .task _ (.natSet v) => some v
    | _ => none

/-- The state that a task is about to pass to `set_nat`. -/
def AutoNatTask.toSet : AutoNatTask → Option AutoNAT
  | .setting v => some v
  | _ => none

/-- The calls of `set_nat` that are still to come from the tasks. -/
def AutoNatClient.toSet (s : AutoNatClient) : List AutoNAT := s.tasks.filterMap AutoNatTask.toSet

/-- The calls of `set_nat` that a state asks for. -/
def due : AutoNAT → List AutoNAT
  | .unknown => []
  | v => [v]

theorem due_of_ne (hv : v ≠ .unknown) : due v = [v] := by
  cases v with
  | unknown => exact absurd rfl hv
  | publicNode | nat => rfl

/-- The counters keep the verdict, and the calls of `set_nat`, made or still to come, are the ones
that it asks for. -/
structure Decided (h : List AutoNatOp) (s : AutoNatClient) : Prop where
  counts : s.shared.raw.Counts (outcomes h)
  calls : (natCalls h ++ s.toSet).Perm (due s.shared.raw.state)

theorem decided_start : Decided [] .start := by
  refine ⟨⟨⟨?_, ?_⟩, fun _ => rfl, fun _ => rfl⟩, .refl _⟩ <;> decide

section

variable [Libp2p]

/-- **What a step of a request does**: it records an outcome, and goes on to `set_nat` if that has
changed the state; or it sets the state of the switch; or the counters stay as they are. -/
theorem AutoNatTask.step_cases {x x' : AutoNatShared} {task : AutoNatTask} {event : AutoNatEvent}
    {task' : Option AutoNatTask} (h : task.step x event = some (x', task')) :
    (∃ o, event = .recorded o ∧ task.toSet = none ∧ x'.raw = (x.raw.record o).2 ∧
      task'.bind toSet = if x.raw.state ≠ x'.raw.state then some x'.raw.state else none) ∨
    (∃ v, event = .natSet v ∧ task.toSet = some v ∧ x'.raw = x.raw ∧ task'.bind toSet = none) ∨
    ((∀ o, event ≠ .recorded o) ∧ (∀ v, event ≠ .natSet v) ∧ x'.raw = x.raw ∧
      task.toSet = none ∧ task'.bind toSet = none) := by
  unfold AutoNatTask.step at h
  split at h
  · cases h
    simp [toSet]
  · cases h
    simp [toSet]
  · split at h <;> cases h <;> simp [toSet]
  · cases h
    simp [toSet]
  · next outcome outcome' =>
    split_ifs at h with hsame
    subst hsame
    have hstates := RawAutoNatClient.record_states x.raw outcome'
    rcases hrecord : x.raw.record outcome' with ⟨⟨before, current⟩, raw⟩
    rw [hrecord] at h hstates
    obtain ⟨hbefore, hcurrent⟩ := Prod.mk.inj hstates
    simp only at h hbefore hcurrent
    cases h
    refine .inl ⟨outcome', rfl, rfl, by rw [hrecord], ?_⟩
    rw [hbefore, hcurrent]
    split_ifs <;> rfl
  · split_ifs at h with hsame
    cases h
    exact .inr (.inl ⟨_, by rw [hsame], rfl, rfl, rfl⟩)
  · cases h
    simp [toSet]
  · cases h

/-- **What a step does**: a request moves on and the other ones stay where they are, or the loop
does something and may start a request. -/
theorem AutoNatClient.next_cases {s s' : AutoNatClient} {op : AutoNatOp} (h : s.next op = some s') :
    (∃ i event task task', op = .task i event ∧
      AutoNatTask.step s.shared task event = some (s'.shared, task') ∧
      s.tasks.Perm (task :: s.tasks.eraseIdx i) ∧
      s'.tasks.Perm (task'.toList ++ s.tasks.eraseIdx i)) ∨
    ((∀ i event, op ≠ .task i event) ∧ s'.shared = s.shared ∧ s'.toSet = s.toSet) := by
  unfold AutoNatClient.next at h
  split at h
  · split at h
    · cases h
      exact .inr ⟨by simp, rfl, rfl⟩
    · cases h
  · split at h
    · cases h
      exact .inr ⟨by simp, rfl, rfl⟩
    · cases h
  · split at h
    · cases h
      refine .inr ⟨by simp, rfl, ?_⟩
      simp only [AutoNatClient.toSet]
      split_ifs <;> simp [AutoNatTask.toSet]
    · cases h
  · next i event =>
    split at h
    · next task htask =>
      have htasks := tasks_perm htask
      split at h
      · next shared task' hstep =>
        cases h
        exact .inl ⟨i, event, task, some task', rfl, hstep, htasks, tasks_set_perm htask task'⟩
      · next shared hstep =>
        -- the task has ended
        cases h
        exact .inl ⟨i, event, task, none, rfl, hstep, htasks, .refl _⟩
      · cases h
    · cases h

/-- **What a step says and leaves to be said**: an outcome is recorded, and a call of `set_nat` is
added to those to come if that has changed the state; or one of these calls is made; or neither. -/
theorem AutoNatClient.next_effect {s s' : AutoNatClient} {op : AutoNatOp}
    (hst : s.next op = some s') :
    (∃ o, outcomes [op] = [o] ∧ natCalls [op] = [] ∧
      s'.shared.raw = (s.shared.raw.record o).2 ∧ s'.toSet.Perm
        ((if s.shared.raw.state ≠ s'.shared.raw.state then [s'.shared.raw.state] else []) ++
          s.toSet)) ∨
    (∃ v, outcomes [op] = [] ∧ natCalls [op] = [v] ∧ s'.shared.raw = s.shared.raw ∧
      s.toSet.Perm (v :: s'.toSet)) ∨
    (outcomes [op] = [] ∧ natCalls [op] = [] ∧ s'.shared.raw = s.shared.raw ∧
      s'.toSet.Perm s.toSet) := by
  rcases next_cases hst with ⟨i, event, task, task', rfl, hstep, hbefore, hafter⟩ |
    ⟨hop, hshared, htasks⟩
  · -- the calls that the other tasks have still to make
    let rest : List AutoNAT := (s.tasks.eraseIdx i).filterMap AutoNatTask.toSet
    have hbefore : s.toSet.Perm (task.toSet.toList ++ rest) := by
      refine (hbefore.filterMap _).trans (.of_eq ?_)
      cases htask : task.toSet <;> simp [htask, rest]
    have hafter : s'.toSet.Perm ((task'.bind AutoNatTask.toSet).toList ++ rest) := by
      refine (hafter.filterMap _).trans (.of_eq ?_)
      cases task' with
      | none => rfl
      | some task' => cases htask : task'.toSet <;> simp [htask, rest]
    rcases AutoNatTask.step_cases hstep with ⟨o, rfl, hnone, hraw, hsome⟩ |
      ⟨v, rfl, hsome, hraw, hnone⟩ | ⟨hrecord, hset, hraw, hnone, hnone'⟩
    · rw [hnone] at hbefore
      rw [hsome] at hafter
      refine .inl ⟨o, rfl, rfl, hraw, hafter.trans ?_⟩
      split_ifs
      · exact hbefore.symm.append_left [s'.shared.raw.state]
      · exact hbefore.symm
    · rw [hsome] at hbefore
      rw [hnone] at hafter
      exact .inr (.inl ⟨v, rfl, rfl, hraw, hbefore.trans (hafter.symm.append_left [v])⟩)
    · rw [hnone] at hbefore
      rw [hnone'] at hafter
      refine .inr (.inr ⟨?_, ?_, hraw, hafter.trans hbefore.symm⟩)
      · cases event with
        | recorded o => exact absurd rfl (hrecord o)
        | _ => rfl
      · cases event with
        | natSet v => exact absurd rfl (hset v)
        | _ => rfl
  · refine .inr (.inr ⟨?_, ?_, by rw [hshared], .of_eq htasks⟩) <;>
    · cases op with
      | task i event => exact absurd rfl (hop i event)
      | _ => rfl

/-- **One step.** -/
theorem Decided.step {h : List AutoNatOp} {s s' : AutoNatClient} {op : AutoNatOp}
    (hi : Decided h s) (hst : s.next op = some s') : Decided (h ++ [op]) s' := by
  have houtcomes : outcomes (h ++ [op]) = outcomes h ++ outcomes [op] := List.filterMap_append
  have hcalls : natCalls (h ++ [op]) = natCalls h ++ natCalls [op] := List.filterMap_append
  rcases AutoNatClient.next_effect hst with ⟨o, hnew, hcall, hraw, htasks⟩ |
    ⟨v, hnew, hcall, hraw, htasks⟩ | ⟨hnew, hcall, hraw, htasks⟩
  · refine ⟨by rw [houtcomes, hnew, hraw]; exact hi.counts.record o, ?_⟩
    rw [hcalls, hcall, List.append_nil]
    refine (htasks.append_left _).trans ?_
    split_ifs with hchanged
    · -- only an undecided state changes, and it has asked for no call
      have hunknown : s.shared.raw.state = .unknown := by
        by_contra hdecided
        rw [hraw, RawAutoNatClient.record_of_decided hdecided] at hchanged
        exact hchanged rfl
      have hold := hi.calls
      rw [hunknown] at hold hchanged
      obtain ⟨hmade, hleft⟩ := List.append_eq_nil_iff.1 hold.eq_nil
      rw [due_of_ne hchanged.symm, hmade, hleft]
      exact .refl _
    · rw [← of_not_not hchanged]
      exact hi.calls
  · refine ⟨by rw [houtcomes, hnew, hraw, List.append_nil]; exact hi.counts, ?_⟩
    rw [hcalls, hcall, hraw, List.append_assoc]
    exact (htasks.symm.append_left _).trans hi.calls
  · refine ⟨by rw [houtcomes, hnew, hraw, List.append_nil]; exact hi.counts, ?_⟩
    rw [hcalls, hcall, hraw, List.append_nil]
    exact (htasks.append_left _).trans hi.calls

theorem decided_run {h : List AutoNatOp} {s : AutoNatClient} (hr : autonatLts.Run h s) :
    Decided h s := by
  refine hr.invariant (I := Decided) ?_ fun h s op s' _ hi hst => hi.step hst
  rintro s rfl
  exact decided_start

/-- **The verdict is given once, and by the first total that reaches three.**  In every run of the
requests of a client, in any interleaving,
* the state of the client is the verdict of the outcomes recorded so far,
* once it is not unknown it never changes,
* as long as it is unknown no task has called `set_nat` or is about to, and
* from then on exactly one task has, or is about to, with that verdict. -/
theorem autonat_verdict {h : List AutoNatOp} {s : AutoNatClient} (hr : autonatLts.Run h s) :
    Verdict (outcomes h) s.shared.raw.state ∧
    (∀ pre post s₁, h = pre ++ post → autonatLts.Run pre s₁ →
      s₁.shared.raw.state ≠ .unknown → s.shared.raw.state = s₁.shared.raw.state) ∧
    (s.shared.raw.state = .unknown → natCalls h = [] ∧ s.toSet = []) ∧
    (s.shared.raw.state ≠ .unknown → natCalls h ++ s.toSet = [s.shared.raw.state]) := by
  have hdecided := decided_run hr
  refine ⟨hdecided.counts.verdict, ?_, fun hunknown => ?_, fun hknown => ?_⟩
  · rintro pre post s₁ rfl hpre hknown
    have houtcomes : outcomes (pre ++ post) = outcomes pre ++ outcomes post :=
      List.filterMap_append
    have hearlier := (decided_run hpre).counts.verdict.append hknown (outcomes post)
    rw [← houtcomes] at hearlier
    exact hdecided.counts.verdict.unique hearlier
  · have hcalls := hdecided.calls
    rw [hunknown] at hcalls
    exact List.append_eq_nil_iff.1 hcalls.eq_nil
  · have hcalls := hdecided.calls
    rw [due_of_ne hknown] at hcalls
    exact List.perm_singleton.1 hcalls

end

section Sample

attribute [local instance] Libp2p.ed25519

/-- Three peers are asked, and none of them can dial back. -/
def threeFailures : List AutoNatOp := [
  .handshake keyA.toPeerId, .checked, .looked true,
  .handshake keyB.toPeerId, .checked, .looked true,
  .handshake keyC.toPeerId, .checked, .looked true,
  .task 0 .opened, .task 1 .opened, .task 2 .opened,
  .task 0 (.answered (some ⟨some 100, none⟩)), .task 1 (.answered (some ⟨some 100, none⟩)),
  .task 2 (.answered (some ⟨some 100, none⟩)),
  .task 0 (.recorded .failure), .task 0 (.recorded .failure), .task 0 (.recorded .failure)]

theorem autonat_verdict_threeFailures :
    ∃ s : AutoNatClient, s.shared.raw.state = .nat ∧
      Verdict (outcomes threeFailures) s.shared.raw.state ∧
      natCalls threeFailures ++ s.toSet = [s.shared.raw.state] := by
  have hstate : (threeFailures.foldlM AutoNatClient.next .start).map
      (fun s => s.shared.raw.state) = some .nat := by decide
  obtain ⟨s, hs, hnat⟩ := Option.map_eq_some_iff.1 hstate
  have hr : autonatLts.Run ([] ++ threeFailures) s :=
    Lts.Run.foldlM (fun _ _ _ h => h) (.start rfl) hs
  have hknown : s.shared.raw.state ≠ .unknown := by rw [hnat]; decide
  exact ⟨s, hnat, (autonat_verdict hr).1, (autonat_verdict hr).2.2.2 hknown⟩

end Sample

end XStack
