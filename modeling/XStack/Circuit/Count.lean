import Mathlib.Algebra.Ring.Nat
import XStack.Circuit.NatAddrs

/-!
# The number of reservations

`CircuitStopServer::reservations` counts the reservations of the running tasks.  It is incremented
when a relay grants a reservation, and decremented on three of the four ways a task with a
reservation can end: when the ping stream cannot be opened, when a ping fails, and when the network
has changed.  A task whose reservation expires does not decrement it, so the count is too high by
one from then on (`expiry_leaves_count`).

After a failed ping the count is decremented before the addresses are withdrawn.  A task that is
about to withdraw them no longer holds its reservation, although it has not ended.

## Main definitions

* `Phase.granted`, `Phase.holding` : the tasks that have a reservation.
* `NoExpiry`, `NoPingFailure` : conditions on the steps of a run.

## Main results

* `reservations_exact_iff` : the runs in which the count is exact.
-/

namespace XStack

/-- The task has been granted a reservation and has not ended. -/
def Phase.granted : Phase → Bool
  | choosing | sleeping | connecting _ | reserving _ => false
  | _ => true

/-- The task has been granted a reservation, has not ended, and no ping has failed. -/
def Phase.holding : Phase → Bool
  | failing _ => false
  | phase => phase.granted

/-- The count is the number of reservations that are held. -/
def HopClient.CountsHolding (s : HopClient) : Prop :=
  s.shared.reservations.toNat = s.tasks.countP Phase.holding

/-- The count is the number of tasks that have been granted a reservation and have not ended. -/
def HopClient.CountsGranted (s : HopClient) : Prop :=
  s.shared.reservations.toNat = s.tasks.countP Phase.granted

/-- No task ends because its reservation has expired. -/
def NoExpiry (_ : List HopOp) (s : HopClient) (op : HopOp) : Prop :=
  ∀ i reservation, op = .task i .locked → s.tasks[i]? ≠ some (.expiring reservation)

/-- No ping fails. -/
def NoPingFailure (_ : List HopOp) (s : HopClient) (op : HopOp) : Prop :=
  ∀ i reservation, op = .task i .failed → s.tasks[i]? ≠ some (.pinging reservation)

/-- **What a step of a task does to the count**: it is incremented for a granted reservation, and
decremented for a task that ends or whose ping has failed; a task that ends by expiry leaves it, and
so does every other step. -/
theorem Phase.step_reservations {x x' : Shared} {phase : Phase} {event : TaskEvent}
    {phase' : Option Phase} (h : phase.step x event = some (x', phase')) :
    (phase.granted = false ∧ (∃ next, phase' = some next ∧ next.holding = true) ∧
      x'.reservations = x.reservations + 1) ∨
    (phase.holding = true ∧ phase' = none ∧ x'.reservations = x.reservations - 1) ∨
    (∃ reservation, phase = .pinging reservation ∧ event = .failed ∧
      phase' = some (.failing reservation) ∧ x'.reservations = x.reservations - 1) ∨
    (∃ reservation, phase = .expiring reservation ∧ event = .locked ∧ phase' = none ∧
      x'.reservations = x.reservations) ∨
    (∃ reservation, phase = .failing reservation ∧ phase' = none ∧
      x'.reservations = x.reservations) ∨
    (phase'.any Phase.granted = phase.granted ∧ phase'.any Phase.holding = phase.holding ∧
      (∀ reservation, phase' ≠ some (.failing reservation)) ∧
      x'.reservations = x.reservations) := by
  unfold Phase.step at h
  split at h
  all_goals try split_ifs at h
  all_goals simp only [Option.some.injEq, Prod.mk.injEq, reduceCtorEq] at h
  all_goals obtain ⟨rfl, rfl⟩ := h
  all_goals simp [Phase.granted, Phase.holding, *]

theorem Phase.granted_of_holding {phase : Phase} (h : phase.holding = true) :
    phase.granted = true := by
  cases phase <;> first | exact h | rfl

theorem Phase.not_holding_of_not_granted {phase : Phase} (h : phase.granted = false) :
    phase.holding = false := by
  cases hh : phase.holding with
  | false => rfl
  | true =>
    rw [Phase.granted_of_holding hh] at h
    cases h

theorem countP_toList {P : Phase → Bool} (phase' : Option Phase) :
    phase'.toList.countP P = if phase'.any P then 1 else 0 := by
  cases phase' with
  | none => rfl
  | some phase => simp [List.countP_cons]

variable {channelLimits : UInt64} {s s' : HopClient} {op : HopOp}

theorem toNat_add_one {n : UInt64} (h : n.toNat + 1 < 2 ^ 64) : (n + 1).toNat = n.toNat + 1 := by
  rw [UInt64.toNat_add]
  exact Nat.mod_eq_of_lt h

theorem toNat_sub_one {n : UInt64} (h : 0 < n.toNat) : (n - 1).toNat = n.toNat - 1 :=
  UInt64.toNat_sub_of_le n 1 h

/-- No step from here on can make the count exceed the range of the counter. -/
theorem countP_lt {h : List HopOp} (hr : (hopLts channelLimits).Run h s) (P : Phase → Bool) :
    s.tasks.countP P < 2 ^ 64 :=
  Nat.lt_of_le_of_lt (List.countP_le_length.trans (tasks_length_le hr)) channelLimits.toNat_lt

theorem countsHolding_task {event : TaskEvent} {phase : Phase} {phase' : Option Phase}
    {rest : List Phase}
    (hstep : phase.step s.shared event = some (s'.shared, phase'))
    (hexpiry : ¬ (event = .locked ∧ ∃ reservation, phase = .expiring reservation))
    (hs : s.shared.reservations.toNat = (phase :: rest).countP Phase.holding)
    (hbound : (phase'.toList ++ rest).countP Phase.holding < 2 ^ 64) :
    s'.shared.reservations.toNat = (phase'.toList ++ rest).countP Phase.holding := by
  rw [List.countP_cons] at hs
  rw [List.countP_append, countP_toList] at hbound ⊢
  rcases Phase.step_reservations hstep with ⟨hgranted, ⟨next, rfl, hnext⟩, hcount⟩ |
    ⟨hholding, rfl, hcount⟩ | ⟨reservation, rfl, rfl, rfl, hcount⟩ |
    ⟨reservation, rfl, rfl, rfl, hcount⟩ | ⟨reservation, rfl, rfl, hcount⟩ |
    ⟨-, hholding, -, hcount⟩
  · -- a reservation is granted
    simp only [Phase.not_holding_of_not_granted hgranted, Bool.false_eq_true, ↓reduceIte] at hs
    simp only [Option.any_some, hnext, ↓reduceIte] at hbound ⊢
    rw [hcount, toNat_add_one (by omega)]
    omega
  · -- the task ends and decrements the count
    simp only [hholding, ↓reduceIte] at hs
    rw [hcount, toNat_sub_one (by omega)]
    simp only [Option.any_none, Bool.false_eq_true, ↓reduceIte]
    omega
  · -- a ping fails
    simp only [Phase.holding, Phase.granted, ↓reduceIte] at hs
    rw [hcount, toNat_sub_one (by omega)]
    simp only [Option.any_some, Phase.holding, Bool.false_eq_true, ↓reduceIte]
    omega
  · exact absurd ⟨rfl, reservation, rfl⟩ hexpiry
  · rw [hcount]
    simp only [Phase.holding, Bool.false_eq_true, ↓reduceIte, Option.any_none] at hs ⊢
    omega
  · rw [hcount, hholding]
    omega

/-- A task ends by expiry if it waits for the mutex to withdraw its addresses and takes it. -/
theorem noExpiry_iff {h : List HopOp} {i : ℕ} {event : TaskEvent} {phase : Phase}
    (hphase : s.tasks[i]? = some phase) : NoExpiry h s (.task i event) ↔
      ¬ (event = .locked ∧ ∃ reservation, phase = .expiring reservation) := by
  constructor
  · rintro hno ⟨rfl, reservation, rfl⟩
    exact hno i reservation rfl hphase
  · rintro hno j reservation he hget
    cases he
    rw [hphase] at hget
    cases hget
    exact hno ⟨rfl, reservation, rfl⟩

/-- **One step**: from a state in which the count is the number of reservations that are held, the
steps that are not an end by expiry are the ones that lead to such a state. -/
theorem countsHolding_iff_noExpiry {h : List HopOp} (hr : (hopLts channelLimits).Run h s)
    (hs : s.CountsHolding) (hst : s.next channelLimits op = some s') :
    s'.CountsHolding ↔ NoExpiry h s op := by
  have hbound := countP_lt (hr.snoc hst) Phase.holding
  unfold HopClient.CountsHolding at hs ⊢
  rcases next_cases hst with ⟨rfl, -, hshared, htasks⟩ |
    ⟨i, event, phase, phase', rfl, hphase, hstep, hperm, hperm'⟩ | ⟨hop, htasks, -, hsame⟩
  · refine iff_of_true ?_ (by simp [NoExpiry])
    rw [hshared, htasks, List.countP_append, hs]
    rfl
  · rw [hperm.countP_eq] at hs
    rw [hperm'.countP_eq] at hbound ⊢
    rw [noExpiry_iff hphase]
    constructor
    · rintro hs' ⟨rfl, reservation, rfl⟩
      -- the task is gone, and the count has not changed
      simp only [Phase.step, Option.some.injEq, Prod.mk.injEq] at hstep
      obtain ⟨hshared, rfl⟩ := hstep
      rw [← hshared] at hs'
      simp only [List.countP_cons, Phase.holding, Phase.granted, ↓reduceIte, Option.toList_none,
        List.nil_append] at hs hs'
      omega
    · intro hexpiry
      exact countsHolding_task hstep hexpiry hs hbound
  · refine iff_of_true ?_ (fun i reservation he => absurd he (hop i .locked))
    rw [hsame, htasks]
    exact hs

/-! ### Tasks whose ping has failed -/

/-- No task ends by expiry, and no ping fails. -/
def NoLoss (h : List HopOp) (s : HopClient) (op : HopOp) : Prop :=
  NoExpiry h s op ∧ NoPingFailure h s op

theorem not_failing {h : List HopOp} (hr : (hopLts channelLimits).RunWhere NoLoss h s) :
    ∀ phase ∈ s.tasks, ∀ reservation, phase ≠ .failing reservation := by
  refine hr.invariant (I := fun _ s => ∀ phase ∈ s.tasks, ∀ reservation,
    phase ≠ .failing reservation) ?_ ?_
  · rintro s ⟨state, now, rfl⟩ phase hmem
    cases hmem
  · intro h s op s' _ hs hc hst phase₁ hmem
    rcases next_cases hst with ⟨-, -, -, htasks⟩ |
      ⟨i, event, phase, phase', rfl, hphase, hstep, hperm, hperm'⟩ | ⟨-, htasks, -⟩
    · rw [htasks] at hmem
      rcases List.mem_append.1 hmem with hmem | hmem
      · exact hs phase₁ hmem
      · rw [List.mem_singleton.1 hmem]
        simp
    · rcases List.mem_append.1 (hperm'.mem_iff.1 hmem) with hmem | hmem
      · rw [Option.mem_toList] at hmem
        cases hmem
        rcases Phase.step_reservations hstep with ⟨-, ⟨next, he, hnext⟩, -⟩ | ⟨-, he, -⟩ |
          ⟨reservation, rfl, rfl, he, -⟩ | ⟨reservation, rfl, rfl, he, -⟩ |
          ⟨reservation, rfl, he, -⟩ | ⟨-, -, he, -⟩
        · cases he
          rintro reservation rfl
          cases hnext
        · cases he
        · exact absurd hphase (hc.2 i reservation rfl)
        · cases he
        · cases he
        · exact fun reservation hf => he reservation (by rw [hf])
      · exact hs phase₁ (hperm.mem_iff.2 (List.mem_cons_of_mem _ hmem))
    · rw [htasks] at hmem
      exact hs phase₁ hmem

/-- From a state in which the count is the number of tasks with a reservation, neither an end by
expiry nor a failed ping leads to such a state. -/
theorem noLoss_of_countsGranted {h : List HopOp} (hs : s.CountsGranted)
    (hst : s.next channelLimits op = some s') (hs' : s'.CountsGranted) : NoLoss h s op := by
  unfold HopClient.CountsGranted at hs hs'
  have htask : ∀ i event phase, op = .task i event → s.tasks[i]? = some phase →
      (event = .locked ∧ ∃ reservation, phase = .expiring reservation) ∨
        (event = .failed ∧ ∃ reservation, phase = .pinging reservation) → False := by
    rintro i event phase rfl hphase hlost
    rcases next_cases hst with ⟨he, -⟩ |
      ⟨j, event', phase₁, phase', he, hphase', hstep, hperm, hperm'⟩ | ⟨hop, -⟩
    · cases he
    · cases he
      rw [hphase] at hphase'
      cases hphase'
      rw [hperm.countP_eq, List.countP_cons] at hs
      rw [hperm'.countP_eq, List.countP_append] at hs'
      rcases hlost with ⟨rfl, reservation, rfl⟩ | ⟨rfl, reservation, rfl⟩ <;>
        simp only [Phase.step, Option.some.injEq, Prod.mk.injEq] at hstep <;>
        obtain ⟨hshared, rfl⟩ := hstep <;> rw [← hshared] at hs' <;>
        simp only [Phase.granted, ↓reduceIte, Option.toList_none, Option.toList_some,
          List.countP_nil, List.countP_singleton] at hs hs'
      · omega
      · rw [toNat_sub_one (by omega)] at hs'
        omega
    · exact hop i event rfl
  exact ⟨fun i reservation he hget => htask i _ _ he hget (.inl ⟨rfl, reservation, rfl⟩),
    fun i reservation he hget => htask i _ _ he hget (.inr ⟨rfl, reservation, rfl⟩)⟩

/-- **When the number of reservations is exact.**  The runs in which, at every moment, the count is
the number of reservations that are held are the runs in which no task ends by expiry.  If a task
whose ping has failed is counted until it has withdrawn its addresses, they are the runs in which
moreover no ping fails.  In all of them no task panics over the answer of a relay. -/
theorem reservations_exact_iff (channelLimits : UInt64) (h : List HopOp) (s : HopClient) :
    ((hopLts channelLimits).RunWhere NoExpiry h s ↔
      (hopLts channelLimits).RunWhere (fun _ s _ => s.CountsHolding) h s ∧ s.CountsHolding) ∧
    ((hopLts channelLimits).RunWhere NoLoss h s ↔
      (hopLts channelLimits).RunWhere (fun _ s _ => s.CountsGranted) h s ∧ s.CountsGranted) := by
  have hstart : ∀ s, (hopLts channelLimits).init s → s.CountsHolding ∧ s.CountsGranted := by
    rintro s ⟨state, now, rfl⟩
    exact ⟨rfl, rfl⟩
  refine ⟨Lts.RunWhere.visits_iff (fun s hi => (hstart s hi).1) ?_ ?_,
    Lts.RunWhere.visits_iff (fun s hi => (hstart s hi).2) ?_ ?_⟩
  · intro h s op s' hr hs hc hst
    exact (countsHolding_iff_noExpiry hr.run hs hst).2 hc
  · intro h s op s' hr hs hst hs'
    exact (countsHolding_iff_noExpiry hr hs hst).1 hs'
  · intro h s op s' hr hs hc hst
    -- without failed pings the two ways to count agree
    have hsame : ∀ {h s}, (hopLts channelLimits).RunWhere NoLoss h s →
        s.tasks.countP Phase.holding = s.tasks.countP Phase.granted := fun hr =>
      List.countP_congr fun phase hmem => by
        have hne := not_failing hr phase hmem
        cases phase with
        | failing reservation => exact absurd rfl (hne reservation)
        | _ => rfl
    have hholding : s.CountsHolding := hs.trans (hsame hr).symm
    have hholding' := (countsHolding_iff_noExpiry hr.run hholding hst).2 hc.1
    exact hholding'.trans (hsame (hr.snoc hc hst))
  · intro h s op s' _ hs hst hs'
    exact noLoss_of_countsGranted hs hst hs'

section Sample

/-- A task makes a reservation, and ends when it has expired. -/
def expiredReservation : List HopOp :=
  announceRelay 0 ++ [.clock 200, .task 0 .proceeded, .task 0 .locked]

/-- A task that ends by expiry leaves the count as it was: it is 1 although no task is running,
whichever way the tasks are counted. -/
theorem expiry_leaves_count :
    ¬ ∀ (channelLimits : UInt64) (h : List HopOp) (s : HopClient),
      (hopLts channelLimits).Run h s → s.CountsHolding ∨ s.CountsGranted := by
  intro hall
  have hcounts := hall 2 expiredReservation _ (run_afterHop (by decide +kernel))
  have hone : (afterHop expiredReservation).shared.reservations.toNat = 1 := by decide +kernel
  have hnone : (afterHop expiredReservation).tasks = [] := by decide +kernel
  rw [HopClient.CountsHolding, HopClient.CountsGranted, hone, hnone] at hcounts
  rcases hcounts with he | he <;> cases he

end Sample

end XStack
