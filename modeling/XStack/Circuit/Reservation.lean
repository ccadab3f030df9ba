import Mathlib.Data.Finset.Erase
import Mathlib.Data.Finset.Insert
import XStack.Event.Basic
import XStack.Lts.Basic

/-!
# The reservation client

A switch behind a NAT reserves slots at relays, and announces the addresses under which it can be
reached through them.  `run_reservation_client` keeps up to `channel_limits` tasks running; each of
them runs `reservation_client_loop_prv`, which makes one reservation and pings the relay until the
reservation expires, a ping fails or the switch is no longer behind a NAT.

A task is given by the point of the function where it waits (`Phase`), and `Phase.step` is the code
from there to the next such point, for each outcome of what it waits for.  The tasks share the
counter of the reservations and two parts of the switch, the announced addresses and the NAT state.

The answer of a relay is read by `circuit_v2_hop_reserve`, which may also panic.  That is no outcome
here: it ends no task but all of them, and `run_hop_client` with them (`HopStep.panicked`).

## Main definitions

* `Phase`, `TaskEvent`, `Phase.step` : a task.
* `HopClient.next`, `hopLts` : the tasks of a switch and its surroundings.
-/

namespace XStack

/-- A granted reservation; the fields the client reads. -/
structure Reservation where
  /-- The expiration time. -/
  expire : SystemTime
  /-- The addresses of the relay, without the trailing `/p2p-circuit`. -/
  addrs : List Multiaddr
  deriving DecidableEq, Repr

/-- The addresses that a reservation lets the switch announce. -/
def Reservation.natAddrs (reservation : Reservation) : List Multiaddr :=
  reservation.addrs.map fun addr => addr ++ [.p2pCircuit]

/-- `MutableSwitch::set_net_addrs`, on the set of the announced addresses. -/
def setNetAddrs (natAddrs : Finset Multiaddr) (addrs : List Multiaddr) : Finset Multiaddr :=
  addrs.foldl (fun natAddrs addr => insert addr natAddrs) natAddrs

/-- `MutableSwitch::remove_net_addrs`. -/
def removeNetAddrs (natAddrs : Finset Multiaddr) (addrs : List Multiaddr) : Finset Multiaddr :=
  addrs.foldl Finset.erase natAddrs

theorem mem_setNetAddrs {natAddrs : Finset Multiaddr} {addrs : List Multiaddr} {addr : Multiaddr} :
    addr ∈ setNetAddrs natAddrs addrs ↔ addr ∈ natAddrs ∨ addr ∈ addrs := by
  induction addrs generalizing natAddrs with
  | nil => simp [setNetAddrs]
  | cons addr' addrs ih =>
    rw [setNetAddrs, List.foldl_cons, ← setNetAddrs, ih, Finset.mem_insert, List.mem_cons,
      or_assoc, or_left_comm]

theorem mem_removeNetAddrs {natAddrs : Finset Multiaddr} {addrs : List Multiaddr}
    {addr : Multiaddr} : addr ∈ removeNetAddrs natAddrs addrs ↔ addr ∈ natAddrs ∧ addr ∉ addrs := by
  induction addrs generalizing natAddrs with
  | nil => simp [removeNetAddrs]
  | cons addr' addrs ih =>
    rw [removeNetAddrs, List.foldl_cons, ← removeNetAddrs, ih, Finset.mem_erase, List.mem_cons,
      not_or, and_assoc, and_left_comm]

/-- Where a run of `reservation_client_loop_prv` waits. -/
inductive Phase where
  /-- For `choose_peers`. -/
  | choosing
  /-- To try again, because no relay is known. -/
  | sleeping
  /-- For the stream to the relay. -/
  | connecting (peerId : PeerId)
  /-- For the answer to the request. -/
  | reserving (peerId : PeerId)
  /-- For the ping stream. -/
  | opening (peerId : PeerId) (reservation : Reservation)
  /-- For the mutex, to announce the addresses. -/
  | announcing (reservation : Reservation)
  /-- At the test of the loop. -/
  | looping (reservation : Reservation)
  /-- For the echo of a ping. -/
  | pinging (reservation : Reservation)
  /-- For the NAT state. -/
  | checking (reservation : Reservation)
  /-- For the next ping to be due. -/
  | pausing (reservation : Reservation)
  /-- For the mutex, to withdraw the addresses of a reservation that has expired. -/
  | expiring (reservation : Reservation)
  /-- For the mutex, to withdraw the addresses after a failed ping. -/
  | failing (reservation : Reservation)
  deriving DecidableEq, Repr

/-- What ends a wait. -/
inductive TaskEvent where
  /-- `choose_peers` answers. -/
  | chosen (peers : List PeerId)
  /-- A stream has been opened. -/
  | opened
  /-- The relay grants the reservation. -/
  | granted (reservation : Reservation)
  /-- An echo has come back. -/
  | ponged
  /-- What the task waits for has failed. -/
  | failed
  /-- The mutex has been taken. -/
  | locked
  /-- The time has come. -/
  | woken
  /-- Nothing; the task goes on. -/
  | proceeded
  deriving DecidableEq, Repr

/-- What the tasks share. -/
structure Shared where
  /-- The announced addresses (`MutableSwitch::nat_addrs`). -/
  natAddrs : Finset Multiaddr
  /-- `MutableSwitch::nat`. -/
  nat : AutoNAT
  /-- `CircuitStopServer::reservations`. -/
  reservations : UInt64
  /-- `SystemTime::now()`. -/
  now : SystemTime

/-- `reservation_client_loop_prv`, from one wait to the next; without a next phase it has ended.  A
task whose wait does not end, or ends in a panic, takes no step. -/
def Phase.step (x : Shared) : Phase → TaskEvent → Option (Shared × Option Phase)
  | .choosing, .chosen [] => some (x, some .sleeping)
  | .choosing, .chosen (peerId :: _) => some (x, some (.connecting peerId))
  | .choosing, .failed => some (x, none)
  | .sleeping, .woken => some (x, none)
  | .connecting peerId, .opened => some (x, some (.reserving peerId))
  | .connecting _, .failed => some (x, none)
  | .reserving peerId, .granted reservation =>
    some ({ x with reservations := x.reservations + 1 }, some (.opening peerId reservation))
  | .reserving _, .failed => some (x, none)
  | .opening _ reservation, .opened => some (x, some (.announcing reservation))
  | .opening _ _, .failed => some ({ x with reservations := x.reservations - 1 }, none)
  | .announcing reservation, .locked =>
    some ({ x with natAddrs := setNetAddrs x.natAddrs reservation.natAddrs },
      some (.looping reservation))
  | .looping reservation, .proceeded =>
    some (x, some (if x.now < reservation.expire then .pinging reservation
      else .expiring reservation))
  | .pinging reservation, .ponged => some (x, some (.checking reservation))
  | .pinging reservation, .failed =>
    some ({ x with reservations := x.reservations - 1 }, some (.failing reservation))
  | .checking reservation, .locked =>
    if x.nat = .nat then some (x, some (.pausing reservation))
    -- the network has changed: the addresses are not withdrawn
    else some ({ x with reservations := x.reservations - 1 }, none)
  | .pausing reservation, .woken => some (x, some (.looping reservation))
  | .expiring reservation, .locked =>
    -- the count is not decremented
    some ({ x with natAddrs := removeNetAddrs x.natAddrs reservation.natAddrs }, none)
  | .failing reservation, .locked =>
    some ({ x with natAddrs := removeNetAddrs x.natAddrs reservation.natAddrs }, none)
  | _, _ => none

/-- A switch with its reservation tasks. -/
structure HopClient where
  /-- What the tasks share. -/
  shared : Shared
  /-- The tasks that have not ended. -/
  tasks : List Phase

/-- What happens to the tasks. -/
inductive HopOp where
  /-- `run_reservation_client` starts a task. -/
  | spawn
  /-- The task with this index goes on. -/
  | task (i : ℕ) (event : TaskEvent)
  /-- `Switch::set_nat`. -/
  | setNat (state : AutoNAT)
  /-- The clock is read anew. -/
  | clock (now : SystemTime)
  deriving DecidableEq, Repr

namespace HopClient

/-- The steps of the tasks and of their surroundings; there are at most `channelLimits` tasks. -/
def next (channelLimits : UInt64) (s : HopClient) : HopOp → Option HopClient
  | .spawn =>
    if s.tasks.length < channelLimits.toNat then some { s with tasks := s.tasks ++ [.choosing] }
    else none
  | .task i event =>
    match s.tasks[i]? with
    | some phase =>
      match phase.step s.shared event with
      | some (shared, some phase') => some ⟨shared, s.tasks.set i phase'⟩
      | some (shared, none) => some ⟨shared, s.tasks.eraseIdx i⟩
      | none => none
    | none => none
  | .setNat state => some { s with shared := { s.shared with nat := state } }
  | .clock now => some { s with shared := { s.shared with now := now } }

/-- Before the first task. -/
def start (state : AutoNAT) (now : SystemTime) : HopClient := ⟨⟨∅, state, 0, now⟩, []⟩

end HopClient

/-- The runs of a reservation client. -/
def hopLts (channelLimits : UInt64) : Lts HopClient HopOp where
  init s := ∃ state now, s = .start state now
  step s op s' := s.next channelLimits op = some s'

/-! ### What a step does -/

variable {channelLimits : UInt64} {s s' : HopClient}

/-- **What a step does**: a task starts; or a task moves on and the other ones stay where they are;
or the surroundings change. -/
theorem next_cases {op : HopOp} (h : s.next channelLimits op = some s') :
    (op = .spawn ∧ s.tasks.length < channelLimits.toNat ∧ s'.shared = s.shared ∧
      s'.tasks = s.tasks ++ [.choosing]) ∨
    (∃ i event phase phase', op = .task i event ∧ s.tasks[i]? = some phase ∧
      phase.step s.shared event = some (s'.shared, phase') ∧
      s.tasks.Perm (phase :: s.tasks.eraseIdx i) ∧
      s'.tasks.Perm (phase'.toList ++ s.tasks.eraseIdx i)) ∨
    ((∀ i event, op ≠ .task i event) ∧ s'.tasks = s.tasks ∧
      s'.shared.natAddrs = s.shared.natAddrs ∧
      s'.shared.reservations = s.shared.reservations) := by
  cases op with
  | spawn =>
    simp only [HopClient.next] at h
    split_ifs at h with hlt
    cases h
    exact .inl ⟨rfl, hlt, rfl, rfl⟩
  | task i event =>
    simp only [HopClient.next] at h
    split at h
    · next phase hphase =>
      have htasks := tasks_perm hphase
      split at h
      · next shared phase' hstep =>
        cases h
        exact .inr (.inl ⟨i, event, phase, some phase', rfl, hphase, hstep, htasks,
          tasks_set_perm hphase phase'⟩)
      · next shared hstep =>
        -- the task has ended
        cases h
        exact .inr (.inl ⟨i, event, phase, none, rfl, hphase, hstep, htasks, .refl _⟩)
      · cases h
    · cases h
  | setNat | clock =>
    cases h
    exact .inr (.inr ⟨by simp, rfl, rfl, rfl⟩)

theorem tasks_length_le {h : List HopOp} (hr : (hopLts channelLimits).Run h s) :
    s.tasks.length ≤ channelLimits.toNat := by
  refine hr.invariant (I := fun _ s => s.tasks.length ≤ channelLimits.toNat) ?_ ?_
  · rintro s ⟨state, now, rfl⟩
    exact Nat.zero_le _
  · intro h s op s' _ hle hst
    rcases next_cases hst with ⟨-, hlt, -, htasks⟩ |
      ⟨i, event, phase, phase', -, -, -, hperm, hperm'⟩ | ⟨-, htasks, -⟩
    · rw [htasks, List.length_append]
      exact hlt
    · have hlen := hperm.length_eq
      have hlen' := hperm'.length_eq
      have hone : phase'.toList.length ≤ 1 := by cases phase' <;> simp
      simp only [List.length_cons, List.length_append] at hlen hlen'
      omega
    · rw [htasks]
      exact hle

end XStack
