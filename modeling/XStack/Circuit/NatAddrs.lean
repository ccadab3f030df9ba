import XStack.Circuit.Reservation

/-!
# The announced relay addresses

The addresses of a reservation are announced when its ping stream has been opened, and are to be
withdrawn when the task that holds the reservation ends.  Two things stand against it.  A task that
ends because the switch is no longer behind a NAT does not withdraw its addresses
(`network_change_leaves_addrs`).  And the announced addresses are a set: when two tasks hold
reservations at one relay, the first one to end withdraws the addresses that the other one still
holds.

## Main definitions

* `Phase.announced` : the addresses that a task has announced and not withdrawn.
* `HopClient.Announces` : exactly these are announced.
* `EndsClean` : a task that ends leaves the set as the others need it.

## Main results

* `announces_iff_endsClean` : what a single step does.
* `nat_addrs_live_iff` : the runs in which exactly the live addresses are announced.
-/

namespace XStack

/-- The addresses that a task has announced and not withdrawn. -/
def Phase.announced : Phase → List Multiaddr
  | looping reservation | pinging reservation | checking reservation | pausing reservation
  | expiring reservation | failing reservation => reservation.natAddrs
  | _ => []

/-- Exactly the addresses of the tasks that are running are announced. -/
def HopClient.Announces (s : HopClient) : Prop :=
  ∀ addr, addr ∈ s.shared.natAddrs ↔ ∃ phase ∈ s.tasks, addr ∈ phase.announced

/-- Another task than the `i`-th one has announced the address. -/
def HopClient.HeldBesides (s : HopClient) (i : ℕ) (addr : Multiaddr) : Prop :=
  ∃ phase ∈ s.tasks.eraseIdx i, addr ∈ phase.announced

/-- The step is not a task that ends
* because of a network change, although no other task holds one of its addresses, or
* after a failed ping or an expiry, although another task holds one of its addresses. -/
def EndsClean (_ : List HopOp) (s : HopClient) : HopOp → Prop
  | .task i .locked =>
    match s.tasks[i]? with
    | some (.checking reservation) =>
      s.shared.nat = .nat ∨ ∀ addr ∈ reservation.natAddrs, s.HeldBesides i addr
    | some (.expiring reservation) | some (.failing reservation) =>
      ∀ addr ∈ reservation.natAddrs, ¬ s.HeldBesides i addr
    | _ => True
  | _ => True

/-- **What a step of a task does to the announced addresses**: the task announces its own, or it
ends and withdraws them, or it ends and leaves them, or nothing changes. -/
theorem Phase.step_natAddrs {x x' : Shared} {phase : Phase} {event : TaskEvent}
    {phase' : Option Phase} (h : phase.step x event = some (x', phase')) :
    (∃ reservation, phase = .announcing reservation ∧ phase' = some (.looping reservation) ∧
      x'.natAddrs = setNetAddrs x.natAddrs reservation.natAddrs) ∨
    (∃ reservation, (phase = .expiring reservation ∨ phase = .failing reservation) ∧
      event = .locked ∧ phase' = none ∧
      x'.natAddrs = removeNetAddrs x.natAddrs reservation.natAddrs) ∨
    (∃ reservation, phase = .checking reservation ∧ event = .locked ∧ x.nat ≠ .nat ∧
      phase' = none ∧ x'.natAddrs = x.natAddrs) ∨
    ((∀ reservation, phase ≠ .expiring reservation ∧ phase ≠ .failing reservation) ∧
      (∀ reservation, phase = .checking reservation → x.nat = .nat) ∧
      phase'.elim [] Phase.announced = phase.announced ∧ x'.natAddrs = x.natAddrs) := by
  unfold Phase.step at h
  split at h
  all_goals try split_ifs at h
  all_goals simp only [Option.some.injEq, Prod.mk.injEq, reduceCtorEq] at h
  all_goals obtain ⟨rfl, rfl⟩ := h
  all_goals simp [Phase.announced, *]

variable {channelLimits : UInt64} {s s' : HopClient} {op : HopOp}

/-- A task that does not end for one of the three reasons ends clean. -/
theorem endsClean_of_other {h : List HopOp} {i : ℕ} {event : TaskEvent} {phase : Phase}
    (hphase : s.tasks[i]? = some phase)
    (hother : ∀ reservation, phase ≠ .expiring reservation ∧ phase ≠ .failing reservation)
    (hnat : ∀ reservation, phase = .checking reservation → s.shared.nat = .nat) :
    EndsClean h s (.task i event) := by
  cases event with
  | locked =>
    simp only [EndsClean, hphase]
    cases phase with
    | checking reservation => exact .inl (hnat reservation rfl)
    | expiring reservation => exact absurd rfl (hother reservation).1
    | failing reservation => exact absurd rfl (hother reservation).2
    | _ => exact True.intro
  | _ => exact True.intro

/-- **One step**: from a state in which exactly the live addresses are announced, the steps that end
clean are the ones that lead to such a state. -/
theorem announces_iff_endsClean {h : List HopOp} (hs : s.Announces)
    (hst : s.next channelLimits op = some s') : s'.Announces ↔ EndsClean h s op := by
  rcases next_cases hst with ⟨rfl, -, hshared, htasks⟩ |
    ⟨i, event, phase, phase', rfl, hphase, hstep, hperm, hperm'⟩ | ⟨hop, htasks, hsame, -⟩
  · refine iff_of_true (fun addr => ?_) True.intro
    rw [hshared, htasks, hs addr]
    simp [Phase.announced]
  · have hbefore : ∀ addr, addr ∈ s.shared.natAddrs ↔
        addr ∈ phase.announced ∨ s.HeldBesides i addr := fun addr => by
      rw [hs addr]
      simp only [hperm.mem_iff, List.exists_mem_cons_iff, HopClient.HeldBesides]
    have hafter : s'.Announces ↔ ∀ addr, addr ∈ s'.shared.natAddrs ↔
        addr ∈ phase'.elim [] Phase.announced ∨ s.HeldBesides i addr := by
      refine forall_congr' fun addr => ?_
      simp only [hperm'.mem_iff, List.mem_append, or_and_right, exists_or, HopClient.HeldBesides]
      cases phase' <;> simp
    rw [hafter]
    rcases Phase.step_natAddrs hstep with ⟨reservation, rfl, rfl, haddrs⟩ |
      ⟨reservation, hends, rfl, rfl, haddrs⟩ | ⟨reservation, rfl, rfl, hnat, rfl, haddrs⟩ |
      ⟨hother, hnat, hannounced, haddrs⟩
    · -- an announcement
      refine iff_of_true (fun addr => ?_) (endsClean_of_other hphase (by simp) (by simp))
      rw [haddrs, mem_setNetAddrs, hbefore addr]
      simp [Phase.announced, or_comm]
    · -- a withdrawal
      have hclean : EndsClean h s (.task i .locked) ↔
          ∀ addr ∈ reservation.natAddrs, ¬ s.HeldBesides i addr := by
        rcases hends with rfl | rfl <;> simp [EndsClean, hphase]
      have hannounced : phase.announced = reservation.natAddrs := by
        rcases hends with rfl | rfl <;> rfl
      rw [hclean]
      refine forall_congr' fun addr => ?_
      rw [haddrs, mem_removeNetAddrs, hbefore addr, hannounced]
      simp only [Option.elim_none, List.not_mem_nil, false_or]
      by_cases hown : addr ∈ reservation.natAddrs <;> simp [hown]
    · -- an end without a withdrawal
      have hclean : EndsClean h s (.task i .locked) ↔
          ∀ addr ∈ reservation.natAddrs, s.HeldBesides i addr := by
        simp [EndsClean, hphase, hnat]
      rw [hclean]
      refine forall_congr' fun addr => ?_
      rw [haddrs, hbefore addr]
      simp only [Phase.announced, Option.elim_none, List.not_mem_nil, false_or]
      exact or_iff_right_iff_imp
    · refine iff_of_true (fun addr => ?_) (endsClean_of_other hphase hother hnat)
      rw [haddrs, hbefore addr, hannounced]
  · refine iff_of_true (fun addr => ?_) ?_
    · rw [hsame, htasks]
      exact hs addr
    · cases op with
      | task i event => exact absurd rfl (hop i event)
      | _ => exact True.intro

/-- **When the announced addresses are the live ones.**  The runs in which, at every moment, exactly
the addresses of the running tasks are announced are the runs in which every task ends clean.  They
are runs in which no task panics over the answer of a relay. -/
theorem nat_addrs_live_iff (channelLimits : UInt64) (h : List HopOp) (s : HopClient) :
    (hopLts channelLimits).RunWhere EndsClean h s ↔
      (hopLts channelLimits).RunWhere (fun _ s _ => s.Announces) h s ∧ s.Announces := by
  refine Lts.RunWhere.visits_iff ?_ ?_ ?_
  · rintro s ⟨state, now, rfl⟩ addr
    simp [HopClient.start]
  · intro h s op s' _ hs hc hst
    exact (announces_iff_endsClean hs hst).2 hc
  · intro h s op s' _ hs hst hs'
    exact (announces_iff_endsClean hs hst).1 hs'

section Sample

/-- An address of a relay. -/
def relayAddr : Multiaddr := [.ip4 0x0a000001, .tcp 4001, .tls, .p2p ⟨[0x00, 0x01, 0x61]⟩]

/-- The `i`-th task makes a reservation at the relay and announces the address. -/
def announceRelay (i : ℕ) : List HopOp :=
  [.spawn, .task i (.chosen [⟨[0x00, 0x01, 0x61]⟩]), .task i .opened,
    .task i (.granted ⟨100, [relayAddr]⟩), .task i .opened, .task i .locked]

/-- A switch behind a NAT, before the first task. -/
def behindNat : HopClient := .start .nat 0

/-- The switch after a history. -/
def afterHop (h : List HopOp) : HopClient := (h.foldlM (HopClient.next 2) behindNat).getD behindNat

theorem run_afterHop {h : List HopOp} (hh : (h.foldlM (HopClient.next 2) behindNat).isSome = true) :
    (hopLts 2).Run h (afterHop h) := by
  have hstart : (hopLts 2).Run [] behindNat := .start ⟨.nat, 0, rfl⟩
  obtain ⟨s, hs⟩ := Option.isSome_iff_exists.1 hh
  have hrun := hstart.foldlM (f := HopClient.next 2) (fun _ _ _ hst => hst) hs
  rw [afterHop, hs]
  exact hrun

/-- A task announces an address and ends because the network has changed. -/
def networkChange : List HopOp :=
  announceRelay 0 ++ [.task 0 .proceeded, .task 0 .ponged, .setNat .publicNode, .task 0 .locked]

/-- A task that ends because of a network change leaves its addresses behind. -/
theorem network_change_leaves_addrs :
    ¬ ∀ (channelLimits : UInt64) (h : List HopOp) (s : HopClient),
      (hopLts channelLimits).Run h s → s.Announces := by
  intro hall
  have hannounces := hall 2 networkChange _ (run_afterHop (by decide +kernel))
  have hleft : relayAddr ++ [.p2pCircuit] ∈ (afterHop networkChange).shared.natAddrs := by
    decide +kernel
  have hnone : (afterHop networkChange).tasks = [] := by decide +kernel
  obtain ⟨phase, hmem, -⟩ := (hannounces _).1 hleft
  rw [hnone] at hmem
  cases hmem

/-- Two tasks hold reservations at one relay, and a ping of the first one fails. -/
def sharedRelay : List HopOp :=
  announceRelay 0 ++ announceRelay 1 ++ [.task 0 .proceeded, .task 0 .failed, .task 0 .locked]

/-- A task that ends withdraws an address that another task still holds. -/
theorem end_withdraws_live_addrs :
    ∃ h s, (hopLts 2).Run h s ∧ ∃ phase ∈ s.tasks, ∃ addr ∈ phase.announced,
      addr ∉ s.shared.natAddrs := by
  refine ⟨sharedRelay, _, run_afterHop (by decide +kernel), .looping ⟨100, [relayAddr]⟩, ?_,
    relayAddr ++ [.p2pCircuit], ?_, ?_⟩
  · decide +kernel
  · decide
  · decide +kernel

end Sample

end XStack
