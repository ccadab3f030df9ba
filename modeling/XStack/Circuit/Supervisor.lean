import Mathlib.Data.Int.Order.Basic
import XStack.Circuit.Hop
import XStack.Event.Delivery
import XStack.Lts.Refinement

/-!
# The hop client

`run_hop_client` waits until the switch is behind a NAT and then runs `run_reservation_client`,
which starts `channel_limits` reservation tasks and, whenever one of them ends, checks the NAT state
and starts tasks until there are as many again.  When all of them have ended it waits anew.

While it waits it learns of a change from the events of its event source, which `Switch::set_nat`
raises after it has set the state.  The model has the event mediator of the switch, every other user
of it, and any number of calls of `set_nat` in progress, each of which sets the state, clones the
senders and sends, with steps of the others in between.  The tasks go on only while
`run_reservation_client` waits for one of them to end.

A task that has asked for a reservation reads the answer of the relay, and panics if the reservation
is to expire beyond the end of time.  This unwinds `run_hop_client`: all tasks are dropped where
they are, and the event source is dropped too.

The tasks are kept in a `FuturesUnorderedMap` under the values of an `i32` that counts them.  When
the count overflows, the client panics or the keys are used again, depending on how the program is
built; `NoOverflow` is about the runs in which it does not.  The map is third-party code.  Its
`next` polls the futures, in any order, removes one that has ended, and lets a panic of a future
pass; `insert` is a parameter (`FuturesMap`).

## Main definitions

* `HopSwitch`, `HopStep`, `hopClientLts` : the hop client and its surroundings.
* `HopClientOp.Panics` : the answers that end the hop client.
* `HopSwitch.Attends`, `HopSwitch.Keyed` : the invariants of the event source and of the tasks.

## Main results

* `hop_client_resumes` : behind a NAT, the hop client gets back to work, unless it has panicked.
* `hop_client_refines` : its tasks are a pool of reservation tasks, as `hopLts` describes it.
-/

namespace XStack

/-! ### What waits for a listener -/

section Due

variable {s s' : MediatorState} {id : XStackId} {name : String} {post : List MediatorOp}
  {op : MediatorOp}

/-- An event waits in the channel of the listener, or is about to be sent there. -/
def MediatorState.Due (s : MediatorState) (id : XStackId) : Prop :=
  (s.channels id).queue ≠ [] ∨ ∃ r event, s.Pending id r event

/-- What a listener that receives nothing has been sent since is at the end of its channel. -/
theorem Served.queue_eq {op : MediatorOp} (hv : Served s id name post)
    (hv' : Served s' id name (post ++ [op])) (hreceives : op.receives id = none) :
    (s'.channels id).queue = (s.channels id).queue ++ (op.sends id).toList.map Prod.snd := by
  have hdelivered := hv'.delivered
  rw [sent_concat, received_concat, hreceives, List.map_append, hv.delivered] at hdelivered
  simpa using hdelivered.symm

/-- **An event that is due stays so** until the listener receives it, and an event that is raised is
due. -/
theorem MediatorStep.due (hw : s.Wf) (hv : Served s id name post) (hkeeps : Keeps id op)
    (hreceives : op.receives id = none) (hst : MediatorStep s op s')
    (hdue : s.Due id ∨ ∃ r event, op = .raise r event ∧ event.toName = name) : s'.Due id := by
  have hv' := hst.served hw hv hkeeps
  have hqueue := hv.queue_eq hv' hreceives
  -- a call that has to send after this step, or has sent in this step
  have hserved : ∀ r event, .raise r event ∈ post ++ [op] → event.toName = name →
      (∀ event', (r, event') ∉ sent post id) → s'.Due id := by
    intro r event hraise hname hunsent
    rcases hv'.served r event hraise hname with hsent | hpending
    · refine .inl ?_
      rw [sent_concat] at hsent
      have hnew := (List.mem_append.1 hsent).resolve_left (hunsent event)
      rw [hqueue]
      exact List.append_ne_nil_of_right_ne_nil _ (List.ne_nil_of_mem (List.mem_map_of_mem hnew))
    · exact .inr ⟨r, event, hpending⟩
  rcases hdue with (hne | ⟨r, event, hpending⟩) | ⟨r, event, rfl, hname⟩
  · refine .inl ?_
    rw [hqueue]
    exact List.append_ne_nil_of_left_ne_nil hne _
  · obtain ⟨hraise, hname⟩ := hv.pending r event hpending
    exact hserved r event (List.mem_append_left _ hraise) hname
      fun event' hsent => (hv.due r event' hsent).2.2.2 event hpending
  · refine hserved r event List.mem_concat_self hname fun event' hsent => ?_
    -- the number of the new call is not one of a call that has sent
    have hlt := (hv.due r event' hsent).2.2.1
    cases hst
    exact Nat.lt_irrefl _ hlt

theorem Served.sends (hw : s.Wf) (hv : Served s id name post) {r : ℕ} {event : Event}
    (hpending : s.Pending id r event) : ∃ answer s', MediatorStep s (.send r id event answer) s' ∧
      (s'.channels id).queue ≠ [] := by
  obtain ⟨raise, sender, ⟨hget, hmem⟩, rfl⟩ := hpending
  obtain ⟨before, after, hsenders⟩ := List.append_of_mem hmem
  have hst := MediatorStep.send r raise before id sender after hget hsenders
  refine ⟨_, _, hst, ?_⟩
  have hv' := hst.served hw hv ⟨by simp, by simp⟩
  rw [hv.queue_eq hv' rfl]
  -- the send does not fail
  cases hanswer : s.answer raise sender with
  | ok => simp [MediatorOp.sends]
  | error e => exact absurd (hanswer ▸ List.mem_concat_self) (hv'.accepted r raise.event e)

end Due

/-! ### The hop client -/

/-- The contents of a `FuturesUnorderedMap`: keys and futures, oldest first. -/
abbrev FuturesUnorderedMap (κ φ : Type) := List (κ × φ)

/-- The third-party `FuturesUnorderedMap`. -/
class FuturesMap where
  /-- `FuturesUnorderedMap::insert`. -/
  insert : {κ φ : Type} → [DecidableEq κ] → FuturesUnorderedMap κ φ → κ → φ →
    FuturesUnorderedMap κ φ

/-- A future with a new key joins the others; what becomes of a future with the same key is left
open. -/
class FuturesMap.Lawful [FuturesMap] : Prop where
  insert_of_fresh : ∀ {κ φ : Type} [DecidableEq κ] {futures : FuturesUnorderedMap κ φ} {key : κ},
    key ∉ futures.map Prod.fst → ∀ future,
      FuturesMap.insert futures key future = futures ++ [(key, future)]

theorem FuturesUnorderedMap.map_fst_set {κ φ : Type} {futures : FuturesUnorderedMap κ φ} {i : ℕ}
    {key : κ} {future : φ} (h : futures[i]? = some (key, future)) (future' : φ) :
    (futures.set i (key, future')).map Prod.fst = futures.map Prod.fst := by
  have hi : i < (futures.map Prod.fst).length := by
    simpa using (List.getElem?_eq_some_iff.1 h).1
  have hkey : (futures.map Prod.fst)[i] = key := by
    simp [(List.getElem?_eq_some_iff.1 h).2]
  rw [List.map_set, ← hkey, List.set_getElem_self]

/-- Where `run_hop_client` is. -/
inductive HopPhase where
  /-- About to bind its event source. -/
  | binding
  /-- Waiting for the NAT state. -/
  | checking
  /-- Waiting for an event. -/
  | waiting
  /-- In the `for` loop of `run_reservation_client`, with this many rounds to go. -/
  | starting (rounds : ℕ)
  /-- Waiting for a task to end. -/
  | serving
  /-- Waiting for the NAT state, after a task has ended. -/
  | rechecking
  /-- In the loop that starts tasks again. -/
  | refilling
  /-- It has returned. -/
  | returned
  /-- A task has panicked, and the panic has ended it. -/
  | unwound
  deriving DecidableEq, Repr

/-- A switch with its hop client. -/
structure HopSwitch where
  /-- `Switch::event_mediator`. -/
  mediator : MediatorState
  /-- What the tasks share. -/
  shared : Shared
  /-- The states set by calls of `Switch::set_nat` that have not raised their event yet. -/
  unraised : List AutoNAT
  phase : HopPhase
  /-- The tasks, under their keys. -/
  unordered : FuturesUnorderedMap Int32 Phase
  /-- The key of the next task. -/
  id : Int32

/-- What happens to the hop client and around it. -/
inductive HopClientOp where
  /-- Somebody else uses the mediator. -/
  | mediator (op : MediatorOp)
  /-- `Switch::set_nat` sets the state. -/
  | setNat (state : AutoNAT)
  /-- `Switch::set_nat` raises its event. -/
  | raise (state : AutoNAT)
  /-- The clock is read anew. -/
  | clock (now : SystemTime)
  /-- The hop client binds its event source. -/
  | bind
  /-- The hop client reads the NAT state. -/
  | nat
  /-- The hop client receives an event. -/
  | event (event : Event)
  /-- The event source of the hop client has ended. -/
  | closed
  /-- The hop client starts a task. -/
  | insert
  /-- A loop that starts tasks is done. -/
  | done
  /-- All tasks have ended. -/
  | drained
  /-- The task with this index goes on. -/
  | task (i : ℕ) (event : TaskEvent)
  /-- The task with this index gets the answer to its request for a reservation. -/
  | answer (i : ℕ) (message : HopMessage)

/-- The steps of the mediator that are none of the hop client: only `Switch::set_nat` raises the
events of the NAT state, and the event source is dropped when the hop client has panicked. -/
structure Foreign (source : XStackId) (phase : HopPhase) (op : MediatorOp) : Prop where
  keeps : phase ≠ .unwound → Keeps source op
  receives : op.receives source = none
  bind : ∀ name buffer, op ≠ .bind source name buffer
  raise : ∀ r state, op ≠ .raise r (.network state)

section Steps

variable [Libp2p] [FuturesMap]

/-- What `circuit_v2_hop_reserve` makes of an answer; nothing, if it panics. -/
def HopMessage.taskEvent (message : HopMessage) : Option TaskEvent :=
  match message.reserved.run with
  | .ok (.ok reservation) => some (.granted reservation.toReservation)
  | .ok (.error _) => some .failed
  | .error _ => none

/-- The operation ends the wait of the task with index `i`, in the given phase: with an event, or
with a panic. -/
inductive EndsWait (i : ℕ) : HopClientOp → Phase → Option TaskEvent → Prop
  -- a reservation is granted by an answer only
  | event {phase event} : (∀ reservation, event ≠ .granted reservation) →
      EndsWait i (.task i event) phase (some event)
  | answer {peerId} (message) :
      EndsWait i (.answer i message) (.reserving peerId) message.taskEvent

/-- The steps of the hop client with the event source `source` and of its surroundings. -/
inductive HopStep (channelLimits : UInt64) (source : XStackId) :
    HopSwitch → HopClientOp → HopSwitch → Prop
  | mediator {s : HopSwitch} {op mediator} : Foreign source s.phase op →
      MediatorStep s.mediator op mediator →
      HopStep channelLimits source s (.mediator op) { s with mediator }
  | setNat (s : HopSwitch) (state) : HopStep channelLimits source s (.setNat state)
      { s with shared := { s.shared with nat := state }, unraised := s.unraised ++ [state] }
  | raise {s : HopSwitch} (before state after) : s.unraised = before ++ state :: after →
      HopStep channelLimits source s (.raise state)
        { s with mediator := s.mediator.raise (.network state), unraised := before ++ after }
  | clock (s : HopSwitch) (now) :
      HopStep channelLimits source s (.clock now) { s with shared := { s.shared with now } }
  | bind {s : HopSwitch} : s.phase = .binding → HopStep channelLimits source s .bind
      { s with mediator := s.mediator.bind source "/xstack/network" 100, phase := .checking }
  | start {s : HopSwitch} : s.phase = .checking → s.shared.nat = .nat →
      HopStep channelLimits source s .nat
        { s with phase := .starting channelLimits.toNat, unordered := [], id := 0 }
  | wait {s : HopSwitch} : s.phase = .checking → s.shared.nat ≠ .nat →
      HopStep channelLimits source s .nat { s with phase := .waiting }
  | event {s : HopSwitch} {event channel} : s.phase = .waiting →
      (s.mediator.channels source).next = some (event, channel) →
      HopStep channelLimits source s (.event event)
        { s with mediator := s.mediator.setChannel source channel, phase := .checking }
  /-- The event source ends when its channel is empty and its senders are gone. -/
  | closed {s : HopSwitch} : s.phase = .waiting → ¬ s.mediator.Due source →
      (∀ name, s.mediator.raw.entry name source = none) →
      HopStep channelLimits source s .closed { s with phase := .returned }
  | insert {s : HopSwitch} {rounds} : s.phase = .starting (rounds + 1) →
      HopStep channelLimits source s .insert { s with
        phase := .starting rounds
        unordered := FuturesMap.insert s.unordered s.id .choosing
        id := s.id + 1 }
  | started {s : HopSwitch} : s.phase = .starting 0 →
      HopStep channelLimits source s .done { s with phase := .serving }
  | task {s : HopSwitch} {op i key phase event shared phase'} : s.phase = .serving →
      s.unordered[i]? = some (key, phase) → EndsWait i op phase (some event) →
      phase.step s.shared event = some (shared, some phase') →
      HopStep channelLimits source s op
        { s with shared, unordered := s.unordered.set i (key, phase') }
  | ended {s : HopSwitch} {op i key phase event shared} : s.phase = .serving →
      s.unordered[i]? = some (key, phase) → EndsWait i op phase (some event) →
      phase.step s.shared event = some (shared, none) →
      HopStep channelLimits source s op
        { s with shared, unordered := s.unordered.eraseIdx i, phase := .rechecking }
  /-- All tasks are dropped. -/
  | panicked {s : HopSwitch} {op i key phase} : s.phase = .serving →
      s.unordered[i]? = some (key, phase) → EndsWait i op phase none →
      HopStep channelLimits source s op { s with unordered := [], phase := .unwound }
  | drained {s : HopSwitch} : s.phase = .serving → s.unordered = [] →
      HopStep channelLimits source s .drained { s with phase := .checking }
  | resume {s : HopSwitch} : s.phase = .rechecking → s.shared.nat = .nat →
      HopStep channelLimits source s .nat { s with phase := .refilling }
  | leave {s : HopSwitch} : s.phase = .rechecking → s.shared.nat ≠ .nat →
      HopStep channelLimits source s .nat { s with phase := .serving }
  | refill {s : HopSwitch} : s.phase = .refilling → s.unordered.length < channelLimits.toNat →
      HopStep channelLimits source s .insert { s with
        unordered := FuturesMap.insert s.unordered s.id .choosing
        id := s.id + 1 }
  | refilled {s : HopSwitch} : s.phase = .refilling → ¬ s.unordered.length < channelLimits.toNat →
      HopStep channelLimits source s .done { s with phase := .serving }

/-- The runs of a hop client that has drawn the id of its event source; the mediator may have been
in use before. -/
def hopClientLts (channelLimits : UInt64) (source : XStackId) : Lts HopSwitch HopClientOp where
  init s := ∃ mediator state now unraised, mediatorLts.Reachable mediator ∧
    source ∈ mediator.drawn ∧ s = ⟨mediator, ⟨∅, state, 0, now⟩, unraised, .binding, [], 0⟩
  step := HopStep channelLimits source

end Steps

/-- The count of the tasks does not overflow in this step. -/
def NoOverflow (_ : List HopClientOp) (s : HopSwitch) (op : HopClientOp) : Prop :=
  op = .insert → s.id ≠ Int32.maxValue

/-- The operation makes a task panic. -/
def HopClientOp.Panics : HopClientOp → Prop
  | .answer _ message => message.Endless
  | _ => False

variable {channelLimits : UInt64} {source : XStackId} {s s' : HopSwitch} {op : HopClientOp}

/-! ### Panics -/

section Panics

variable [Libp2p]

theorem HopMessage.taskEvent_eq_none_iff {message : HopMessage} :
    message.taskEvent = none ↔ message.Endless := by
  unfold taskEvent
  rcases message.reserved_cases with ⟨r, hgrants, hreserved⟩ | ⟨-, hendless, e, hreserved⟩ |
    ⟨hendless, reason, hreserved⟩ <;> rw [hreserved]
  · exact iff_of_false (by simp) hgrants.not_endless
  · exact iff_of_false (by simp) hendless
  · exact iff_of_true rfl hendless

theorem EndsWait.panics_iff {i : ℕ} {phase : Phase} {event : Option TaskEvent}
    (h : EndsWait i op phase event) : op.Panics ↔ event = none := by
  cases h with
  | event => exact iff_of_false id (by simp)
  | answer message => exact HopMessage.taskEvent_eq_none_iff.symm

variable [FuturesMap]

theorem HopStep.unwound_iff (hst : HopStep channelLimits source s op s') :
    s'.phase = .unwound ↔ s.phase = .unwound ∨ op.Panics := by
  cases hst with
  | mediator | setNat | raise | clock => simp [HopClientOp.Panics]
  | task hphase _ hends | ended hphase _ hends | panicked hphase _ hends =>
    rw [hends.panics_iff]
    simp [hphase]
  | bind hphase | start hphase | wait hphase | event hphase | closed hphase | insert hphase
  | started hphase | drained hphase | resume hphase | leave hphase | refill hphase
  | refilled hphase => simp [HopClientOp.Panics, hphase]

/-- **What ends the hop client**: the answers that make a task panic, and nothing else does. -/
theorem hopClientLts_unwound_iff {h : List HopClientOp}
    (hr : (hopClientLts channelLimits source).Run h s) :
    s.phase = .unwound ↔ ∃ op ∈ h, op.Panics := by
  refine hr.invariant (I := fun h s => s.phase = .unwound ↔ ∃ op ∈ h, op.Panics) ?_ ?_
  · rintro s ⟨mediator, state, now, unraised, -, -, rfl⟩
    simp
  · intro h s op s' _ ih hst
    rw [hst.unwound_iff, ih]
    simp only [List.mem_append, List.mem_singleton, or_and_right, exists_or, exists_eq_left]

end Panics

/-! ### The event source -/

theorem MediatorStep.drawn {s s' : MediatorState} {op : MediatorOp} (hst : MediatorStep s op s')
    (hbind : ∀ name buffer, op ≠ .bind source name buffer) (hs : source ∈ s.drawn) :
    source ∈ s'.drawn := by
  cases hst with
  | newId => exact List.mem_cons_of_mem _ hs
  | bind id name buffer =>
    have hne : source ≠ id := fun he => hbind name buffer (by rw [he])
    exact (List.mem_erase_of_ne hne).2 hs
  | raise | send | raised | close | receive | dropReceiver => exact hs

namespace HopSwitch

/-- The hop client does not miss an event: when it waits although the switch is behind a NAT, a call
of `set_nat` is in progress, or an event is there. -/
structure Attends (source : XStackId) (s : HopSwitch) : Prop where
  mediator : s.mediator.Wf
  drawn : s.phase = .binding → source ∈ s.mediator.drawn
  served : s.phase ≠ .binding → s.phase ≠ .unwound →
    ∃ post, Served s.mediator source "/xstack/network" post
  awake : s.phase = .waiting → s.shared.nat = .nat → s.unraised ≠ [] ∨ s.mediator.Due source
  running : s.phase ≠ .returned

namespace Attends

theorem others (hs : s.Attends source) {op : MediatorOp} {mediator : MediatorState}
    {unraised : List AutoNAT} (hkeeps : s.phase ≠ .unwound → Keeps source op)
    (hreceives : op.receives source = none)
    (hbind : ∀ name buffer, op ≠ .bind source name buffer)
    (hst : MediatorStep s.mediator op mediator)
    (hraise : s.unraised ≠ [] → unraised ≠ [] ∨ ∃ r state, op = .raise r (.network state)) :
    Attends source { s with mediator, unraised } := by
  refine ⟨hst.wf hs.mediator, fun hp => hst.drawn hbind (hs.drawn hp), fun hp hp' => ?served,
    fun hp hnat => ?awake, hs.running⟩
  case served =>
    obtain ⟨post, hv⟩ := hs.served hp hp'
    exact ⟨_, hst.served hs.mediator hv (hkeeps hp')⟩
  case awake =>
    have hphase : s.phase = .waiting := hp
    obtain ⟨post, hv⟩ := hs.served (by simp [hphase]) (by simp [hphase])
    have hkeeps := hkeeps (by simp [hphase])
    rcases hs.awake hp hnat with hne | hdue
    · rcases hraise hne with hne | ⟨r, state, rfl⟩
      · exact .inl hne
      · exact .inr (hst.due hs.mediator hv hkeeps hreceives (.inr ⟨r, _, rfl, rfl⟩))
    · exact .inr (hst.due hs.mediator hv hkeeps hreceives (.inl hdue))

theorem moves (hs : s.Attends source) (hmediator : s'.mediator = s.mediator)
    (hbound : s.phase ≠ .binding ∧ s.phase ≠ .unwound)
    (hphase : s'.phase ≠ .binding ∧ s'.phase ≠ .waiting ∧ s'.phase ≠ .returned) :
    s'.Attends source :=
  ⟨hmediator ▸ hs.mediator, fun hp => absurd hp hphase.1,
    fun _ _ => hmediator ▸ hs.served hbound.1 hbound.2, fun hp => absurd hp hphase.2.1, hphase.2.2⟩

end Attends

end HopSwitch

section EventSource

variable [Libp2p] [FuturesMap]

theorem HopStep.attends (hs : s.Attends source) (hst : HopStep channelLimits source s op s') :
    s'.Attends source := by
  cases hst with
  | mediator hforeign hst =>
    exact hs.others hforeign.keeps hforeign.receives hforeign.bind hst .inl
  | setNat state => exact ⟨hs.mediator, hs.drawn, hs.served, fun _ _ => .inl (by simp), hs.running⟩
  | raise before state after hun =>
    exact hs.others (fun _ => ⟨by simp, by simp⟩) rfl (by simp) (.raise _ _)
      fun _ => .inr ⟨_, _, rfl⟩
  | clock now => exact ⟨hs.mediator, hs.drawn, hs.served, hs.awake, hs.running⟩
  | bind hphase =>
    have hst := MediatorStep.bind source "/xstack/network" 100 (hs.drawn hphase)
    exact ⟨hst.wf hs.mediator, by simp, fun _ _ => ⟨[], .start hs.mediator hst⟩, by simp, by simp⟩
  | event hphase hn =>
    obtain ⟨post, hv⟩ := hs.served (by simp [hphase]) (by simp [hphase])
    have hreceive := MediatorStep.receive source _ _ hn
    exact ⟨hreceive.wf hs.mediator, by simp, fun _ _ => ⟨_, hv.receive hn⟩, by simp, by simp⟩
  | wait hphase hnat =>
    exact ⟨hs.mediator, by simp, fun _ _ => hs.served (by simp [hphase]) (by simp [hphase]),
      fun _ hnat' => absurd hnat' hnat, by simp⟩
  | closed hphase hdue hgone =>
    -- the mediator keeps the sender of the event source
    obtain ⟨post, hv⟩ := hs.served (by simp [hphase]) (by simp [hphase])
    obtain ⟨sender, hentry⟩ := hv.entry
    rw [hgone] at hentry
    cases hentry
  | start hphase | insert hphase | started hphase | task hphase | ended hphase | panicked hphase
  | drained hphase | resume hphase | leave hphase | refill hphase | refilled hphase =>
    exact hs.moves rfl (by simp [hphase]) (by simp [hphase])

/-- **The event source of the hop client**, in every reachable state. -/
theorem hopClientLts_attends {h : List HopClientOp}
    (hr : (hopClientLts channelLimits source).Run h s) : s.Attends source := by
  refine hr.invariant (I := fun _ s => s.Attends source) ?_ fun _ _ _ _ _ hs hst => hst.attends hs
  rintro s ⟨mediator, state, now, unraised, hmediator, hdrawn, rfl⟩
  exact ⟨mediatorLts_wf hmediator, fun _ => hdrawn, by simp, by simp, by simp⟩

end EventSource

/-! ### The tasks -/

theorem toInt_add_one {n : Int32} (h : n ≠ Int32.maxValue) : (n + 1).toInt = n.toInt + 1 := by
  have hle : n.toInt ≤ 0x7fffffff := Int32.toInt_le n
  have hge : -0x80000000 ≤ n.toInt := Int32.le_toInt n
  have hne : n.toInt ≠ 0x7fffffff := fun he => h (Int32.toInt.inj he)
  rw [Int32.toInt_add, Int32.toInt_one, Int.bmod_eq_of_le (by omega) (by omega)]

/-- The keys of the tasks are different, and the next one is new; there are at most as many tasks as
the limit says. -/
structure HopSwitch.Keyed (channelLimits : UInt64) (s : HopSwitch) : Prop where
  nodup : (s.unordered.map Prod.fst).Nodup
  below : ∀ key ∈ s.unordered.map Prod.fst, key.toInt < s.id.toInt
  nonneg : 0 ≤ s.id.toInt
  bounded : s.unordered.length ≤ channelLimits.toNat
  starting : ∀ rounds, s.phase = .starting rounds →
    s.unordered.length + rounds = channelLimits.toNat
  idle : s.phase = .binding ∨ s.phase = .checking ∨ s.phase = .waiting ∨ s.phase = .unwound →
    s.unordered = []

namespace HopSwitch.Keyed

theorem fresh (hs : s.Keyed channelLimits) : s.id ∉ s.unordered.map Prod.fst :=
  fun hmem => absurd (hs.below _ hmem) (lt_irrefl _)

theorem stays (hs : s.Keyed channelLimits) (hunordered : s'.unordered = s.unordered)
    (hid : s'.id = s.id) (hstarting : ∀ rounds, s'.phase = .starting rounds → s.phase = s'.phase)
    (hidle : s'.phase = .binding ∨ s'.phase = .checking ∨ s'.phase = .waiting ∨
      s'.phase = .unwound → s.unordered = []) : s'.Keyed channelLimits := by
  refine ⟨?_, ?_, hid ▸ hs.nonneg, hunordered ▸ hs.bounded, fun rounds hp => ?_, fun hp => ?_⟩
  · rw [hunordered]
    exact hs.nodup
  · rw [hunordered, hid]
    exact hs.below
  · rw [hunordered]
    exact hs.starting rounds ((hstarting rounds hp).trans hp)
  · rw [hunordered]
    exact hidle hp

variable [FuturesMap] [FuturesMap.Lawful]

theorem inserts (hs : s.Keyed channelLimits) (hid : s.id ≠ Int32.maxValue)
    (hlt : s.unordered.length < channelLimits.toNat) {phase : HopPhase}
    (hstarting : ∀ rounds, phase = .starting rounds → s.phase = .starting (rounds + 1))
    (hidle : ¬ (phase = .binding ∨ phase = .checking ∨ phase = .waiting ∨ phase = .unwound)) :
    Keyed channelLimits { s with
      phase, unordered := FuturesMap.insert s.unordered s.id .choosing, id := s.id + 1 } := by
  have hinsert := FuturesMap.Lawful.insert_of_fresh hs.fresh Phase.choosing
  have hnext := toInt_add_one hid
  refine ⟨?nodup, ?below, ?nonneg, ?bounded, fun rounds hp => ?starting, fun hp => absurd hp hidle⟩
  case nodup =>
    rw [hinsert, List.map_append]
    exact hs.nodup.append (List.nodup_singleton _) (List.disjoint_singleton.2 hs.fresh)
  case below =>
    intro key hmem
    show key.toInt < (s.id + 1).toInt
    rw [hinsert, List.map_append] at hmem
    rcases List.mem_append.1 hmem with hold | hnew
    · have := hs.below key hold
      omega
    · have hkey : key = s.id := List.mem_singleton.1 hnew
      rw [hkey]
      omega
  case nonneg =>
    have := hs.nonneg
    show 0 ≤ (s.id + 1).toInt
    omega
  case bounded =>
    rw [hinsert, List.length_append]
    exact hlt
  case starting =>
    have := hs.starting _ (hstarting rounds hp)
    rw [hinsert, List.length_append, List.length_singleton]
    omega

end HopSwitch.Keyed

section Tasks

variable [Libp2p] [FuturesMap] [FuturesMap.Lawful]

theorem HopStep.keyed (hs : s.Keyed channelLimits) {h : List HopClientOp}
    (hoverflow : NoOverflow h s op) (hst : HopStep channelLimits source s op s') :
    s'.Keyed channelLimits := by
  cases hst with
  | mediator | setNat | raise | clock => exact hs.stays rfl rfl (fun _ _ => rfl) hs.idle
  | bind hphase | wait hphase | event hphase =>
    exact hs.stays rfl rfl (by simp) fun _ => hs.idle (by simp [hphase])
  | closed | resume | leave | refilled | started => exact hs.stays rfl rfl (by simp) (by simp)
  | drained hphase hempty => exact hs.stays rfl rfl (by simp) fun _ => hempty
  | start hphase hnat =>
    refine ⟨List.nodup_nil, by simp, le_rfl, Nat.zero_le _, ?_, by simp⟩
    rintro rounds hp
    cases hp
    exact Nat.zero_add _
  | insert hphase =>
    have hrounds := hs.starting _ hphase
    exact hs.inserts (hoverflow rfl) (by omega) (by simpa using hphase) (by simp)
  | refill hphase hlt => exact hs.inserts (hoverflow rfl) hlt (by simp [hphase]) (by simp [hphase])
  | task hphase hget =>
    have hkeys := FuturesUnorderedMap.map_fst_set hget
    refine ⟨?_, ?_, hs.nonneg, ?_, by simp [hphase], by simp [hphase]⟩
    · rw [hkeys]
      exact hs.nodup
    · rw [hkeys]
      exact hs.below
    · rw [List.length_set]
      exact hs.bounded
  | ended hphase hget =>
    refine ⟨?_, ?_, hs.nonneg, ?_, by simp, by simp⟩
    · exact hs.nodup.sublist ((List.eraseIdx_sublist _ _).map _)
    · exact fun key hmem => hs.below key (((List.eraseIdx_sublist _ _).map _).subset hmem)
    · exact (List.eraseIdx_sublist _ _).length_le.trans hs.bounded
  | panicked =>
    exact ⟨List.nodup_nil, by simp, hs.nonneg, Nat.zero_le _, by simp, fun _ => rfl⟩

/-- **The tasks of the hop client**, in every run in which their count does not overflow. -/
theorem hopClientLts_keyed {h : List HopClientOp}
    (hr : (hopClientLts channelLimits source).RunWhere NoOverflow h s) : s.Keyed channelLimits := by
  refine hr.invariant (I := fun _ s => s.Keyed channelLimits) ?_
    fun _ _ _ _ _ hs hoverflow hst => hst.keyed hs hoverflow
  rintro s ⟨mediator, state, now, unraised, -, -, rfl⟩
  exact ⟨List.nodup_nil, by simp, le_rfl, Nat.zero_le _, by simp, fun _ => rfl⟩

/-- The pool of reservation tasks, without the keys. -/
def HopSwitch.pool (s : HopSwitch) : HopClient := ⟨s.shared, s.unordered.map Prod.snd⟩

/-- What an operation does to the pool, which knows no panics. -/
def HopClientOp.hop : HopClientOp → List HopOp
  | .setNat state => [.setNat state]
  | .clock now => [.clock now]
  | .insert => [.spawn]
  | .task i taskEvent => [.task i taskEvent]
  | .answer i message => (message.taskEvent.map (.task i)).toList
  | _ => []

omit [FuturesMap] [FuturesMap.Lawful] in
theorem EndsWait.hop_eq {i : ℕ} {phase : Phase} {event : Option TaskEvent}
    (h : EndsWait i op phase event) : op.hop = (event.map (HopOp.task i)).toList := by
  cases h <;> rfl

omit [Libp2p] in
theorem HopSwitch.Keyed.spawns (hs : s.Keyed channelLimits)
    (hlt : s.unordered.length < channelLimits.toNat) (phase : HopPhase) :
    ((hopLts channelLimits).startingAt s.pool).Run [.spawn] (HopSwitch.pool { s with
      phase, unordered := FuturesMap.insert s.unordered s.id .choosing, id := s.id + 1 }) := by
  refine .one (show s.pool.next channelLimits .spawn = some _ from ?_)
  have hinsert := FuturesMap.Lawful.insert_of_fresh hs.fresh Phase.choosing
  have hlt' : s.pool.tasks.length < channelLimits.toNat := by simpa [HopSwitch.pool] using hlt
  rw [HopClient.next, if_pos hlt']
  simp [HopSwitch.pool, hinsert]

omit [Libp2p] [FuturesMap] [FuturesMap.Lawful] in
theorem pool_task {i : ℕ} {key : Int32} {phase : Phase} {event : TaskEvent} {shared : Shared}
    {phase' : Option Phase} (hget : s.unordered[i]? = some (key, phase))
    (hstep : phase.step s.shared event = some (shared, phase')) :
    ((hopLts channelLimits).startingAt s.pool).Run [.task i event] ⟨shared,
      (phase'.elim (s.unordered.eraseIdx i) fun phase' => s.unordered.set i (key, phase')).map
        Prod.snd⟩ := by
  refine .one (show s.pool.next channelLimits (.task i event) = some _ from ?_)
  cases phase' with
  | none => simp [HopClient.next, HopSwitch.pool, hget, hstep, List.eraseIdx_map]
  | some phase' => simp [HopClient.next, HopSwitch.pool, hget, hstep, List.map_set]

/-- The pool is the one of the hop client; once a task has panicked, it keeps the tasks that have
been dropped. -/
structure HopSwitch.StandsFor (s : HopSwitch) (pool : HopClient) : Prop where
  shared : s.shared = pool.shared
  tasks : s.phase ≠ .unwound → s.unordered.map Prod.snd = pool.tasks

/-- Every step of the hop client is a step of the pool, or does not concern it. -/
theorem hopClient_simulation (channelLimits : UInt64) (source : XStackId) :
    Lts.Simulation (hopClientLts channelLimits source) NoOverflow (hopLts channelLimits)
      HopClientOp.hop HopSwitch.StandsFor := by
  constructor
  case init =>
    rintro s ⟨mediator, state, now, unraised, -, -, rfl⟩
    exact ⟨_, ⟨state, now, rfl⟩, rfl, fun _ => rfl⟩
  case step =>
    rintro h s op s' pool hr hoverflow hst ⟨hshared, htasks⟩
    have hs := hopClientLts_keyed hr
    -- as long as no task has panicked, the pool is the one of the hop client
    have hown (hp : s.phase ≠ .unwound) : s.pool = pool := by
      rw [HopSwitch.pool, hshared, htasks hp]
    cases hst with
    | mediator | raise => exact ⟨pool, .none, hshared, htasks⟩
    | setNat state =>
      exact ⟨{ pool with shared := { pool.shared with nat := state } }, .one rfl,
        congrArg (fun shared : Shared => { shared with nat := state }) hshared, htasks⟩
    | clock now =>
      exact ⟨{ pool with shared := { pool.shared with now := now } }, .one rfl,
        congrArg (fun shared : Shared => { shared with now := now }) hshared, htasks⟩
    | bind hphase | wait hphase | event hphase | closed hphase | started hphase | drained hphase
    | resume hphase | leave hphase | refilled hphase =>
      exact ⟨pool, .none, hshared, fun _ => htasks (by simp [hphase])⟩
    | start hphase =>
      have hidle : s.unordered = [] := hs.idle (by simp [hphase])
      refine ⟨pool, .none, hshared, fun _ => ?_⟩
      rw [← htasks (by simp [hphase]), hidle]
    | insert hphase =>
      have hrounds := hs.starting _ hphase
      rw [← hown (by simp [hphase])]
      exact ⟨_, hs.spawns (by omega) _, rfl, fun _ => rfl⟩
    | refill hphase hlt =>
      rw [← hown (by simp [hphase])]
      exact ⟨_, hs.spawns hlt _, rfl, fun _ => rfl⟩
    | task hphase hget hends hstep | ended hphase hget hends hstep =>
      rw [← hown (by simp [hphase]), hends.hop_eq]
      exact ⟨_, pool_task hget hstep, rfl, fun _ => rfl⟩
    | panicked hphase hget hends =>
      rw [hends.hop_eq]
      exact ⟨pool, .none, hshared, fun hp => absurd rfl hp⟩

/-- **The tasks of the hop client are a pool of reservation tasks.**  In every run in which their
count does not overflow, the tasks have started, gone on and ended as in a run of the pool, their
keys are different, and there are never more than the limit says.  So none of them is dropped before
it ends, until one of them panics: then all of them are dropped where they are. -/
theorem hop_client_refines (channelLimits : UInt64) (source : XStackId) (h : List HopClientOp)
    (s : HopSwitch) (hr : (hopClientLts channelLimits source).RunWhere NoOverflow h s) :
    ∃ tasks, (hopLts channelLimits).Run (h.flatMap HopClientOp.hop) ⟨s.shared, tasks⟩ ∧
      ((∀ op ∈ h, ¬ op.Panics) ∧ s.unordered.map Prod.snd = tasks ∨
        (∃ op ∈ h, op.Panics) ∧ s.phase = .unwound ∧ s.unordered = []) ∧
      (s.unordered.map Prod.fst).Nodup ∧ s.unordered.length ≤ channelLimits.toNat := by
  obtain ⟨⟨shared, tasks⟩, hpool, hshared, htasks⟩ :=
    (hopClient_simulation channelLimits source).run hr
  have hs := hopClientLts_keyed hr
  have hunwound := hopClientLts_unwound_iff hr.run
  dsimp only at hshared
  subst hshared
  refine ⟨tasks, hpool, ?_, hs.nodup, hs.bounded⟩
  by_cases hphase : s.phase = .unwound
  · exact .inr ⟨hunwound.1 hphase, hphase, hs.idle (by simp [hphase])⟩
  · exact .inl ⟨fun op hop hpanics => hphase (hunwound.2 ⟨op, hop, hpanics⟩), htasks hphase⟩

end Tasks

/-! ### Back to work -/

/-- The hop client goes on by itself. -/
def HopClientOp.own : HopClientOp → Bool
  | .bind | .nat | .event _ | .insert | .done | .drained => true
  | _ => false

/-- The hop client goes on, or a call of `set_nat` that is in progress does; the count of the tasks
does not overflow. -/
def Proceeds (source : XStackId) (s : HopSwitch) (op : HopClientOp) : Prop :=
  (op.own = true ∨ (∃ state, op = .raise state) ∨
    ∃ r event answer, op = .mediator (.send r source event answer)) ∧ NoOverflow [] s op

/-- As many tasks as the limit says are running, and nothing else has changed. -/
def HopSwitch.Serves (channelLimits : UInt64) (shared : Shared) (s : HopSwitch) : Prop :=
  s.phase = .serving ∧ s.shared = shared ∧ s.unordered.length = channelLimits.toNat

theorem Proceeds.of_own (hown : op.own = true) (hinsert : op ≠ .insert) : Proceeds source s op :=
  ⟨.inl hown, fun he => absurd he hinsert⟩

section Progress

variable [FuturesMap] [FuturesMap.Lawful]

theorem HopSwitch.Keyed.room (hs : s.Keyed channelLimits)
    (hlt : s.unordered.length < channelLimits.toNat)
    (hroom : s.id.toInt + channelLimits.toNat < 0x80000000 + s.unordered.length) :
    s.id ≠ Int32.maxValue ∧ (s.id + 1).toInt = s.id.toInt + 1 ∧
      (FuturesMap.insert s.unordered s.id Phase.choosing).length = s.unordered.length + 1 := by
  have hne : s.id ≠ Int32.maxValue := by
    intro he
    have hmax : s.id.toInt = 0x7fffffff := congrArg Int32.toInt he
    omega
  refine ⟨hne, toInt_add_one hne, ?_⟩
  rw [FuturesMap.Lawful.insert_of_fresh hs.fresh, List.length_append, List.length_singleton]

variable [Libp2p]

/-- **The loops that start tasks end** with as many tasks as the limit says. -/
theorem leads_of_filling (hs : s.Keyed channelLimits)
    (hphase : (∃ rounds, s.phase = .starting rounds) ∨ s.phase = .refilling)
    (hroom : s.id.toInt + channelLimits.toNat < 0x80000000 + s.unordered.length) :
    (hopClientLts channelLimits source).Leads (Proceeds source)
      (HopSwitch.Serves channelLimits s.shared) s := by
  refine Lts.Leads.of_measure
    (I := fun s' => s'.shared = s.shared ∧ s'.Keyed channelLimits ∧
      ((∃ rounds, s'.phase = .starting rounds) ∨ s'.phase = .refilling ∨
        s'.phase = .serving ∧ s'.unordered.length = channelLimits.toNat) ∧
      s'.id.toInt + channelLimits.toNat < 0x80000000 + s'.unordered.length)
    (fun s' => channelLimits.toNat - s'.unordered.length + if s'.phase = .serving then 0 else 1)
    ?_ ⟨rfl, hs, hphase.imp_right .inl, hroom⟩
  rintro s' ⟨hshared, hs', hphase', hroom'⟩
  -- one more task
  have hinsert : ∀ phase : HopPhase, s'.unordered.length < channelLimits.toNat →
      ((∃ rounds, phase = .starting rounds) ∨ phase = .refilling) →
      HopStep channelLimits source s' .insert
        { s' with
          phase, unordered := FuturesMap.insert s'.unordered s'.id .choosing, id := s'.id + 1 } →
      ∃ op s'', Proceeds source s' op ∧ HopStep channelLimits source s' op s'' ∧
        (s''.shared = s.shared ∧ s''.Keyed channelLimits ∧
          ((∃ rounds, s''.phase = .starting rounds) ∨ s''.phase = .refilling ∨
            s''.phase = .serving ∧ s''.unordered.length = channelLimits.toNat) ∧
          s''.id.toInt + channelLimits.toNat < 0x80000000 + s''.unordered.length) ∧
        channelLimits.toNat - s''.unordered.length + (if s''.phase = .serving then 0 else 1) <
          channelLimits.toNat - s'.unordered.length + 1 := by
    intro phase hlt hphase hst
    obtain ⟨hne, hid, hlength⟩ := hs'.room hlt hroom'
    have hkeyed := hst.keyed (h := []) hs' fun _ => hne
    have hserving : phase ≠ .serving := by
      rintro rfl
      simp at hphase
    refine ⟨.insert, _, ⟨.inl rfl, fun _ => hne⟩, hst, ⟨hshared, hkeyed, ?_, ?_⟩, ?_⟩
    · exact hphase.imp_right .inl
    · simp only [hid, hlength]
      omega
    · simp only [hlength, if_neg hserving]
      omega
  rcases hphase' with ⟨rounds, hphase'⟩ | hphase' | ⟨hphase', hlength⟩
  · have hrounds := hs'.starting rounds hphase'
    cases rounds with
    | zero =>
      have hst : HopStep channelLimits source s' .done _ := .started hphase'
      refine .inr ⟨.done, _, .of_own rfl (by simp), hst, ⟨hshared,
        hst.keyed (h := []) hs' (by simp [NoOverflow]), ?_, hroom'⟩, by simp [hphase']⟩
      exact .inr (.inr ⟨rfl, hrounds⟩)
    | succ rounds =>
      rw [if_neg (by simp [hphase'])]
      exact .inr (hinsert (.starting rounds) (by omega) (.inl ⟨_, rfl⟩) (.insert hphase'))
  · by_cases hlt : s'.unordered.length < channelLimits.toNat
    · rw [if_neg (by simp [hphase'])]
      refine .inr (hinsert .refilling hlt (.inr rfl) ?_)
      have hst : HopStep channelLimits source s' .insert _ := .refill hphase' hlt
      rwa [hphase'] at hst
    · have hst : HopStep channelLimits source s' .done _ := .refilled hphase' hlt
      refine .inr ⟨.done, _, .of_own rfl (by simp), hst, ⟨hshared,
        hst.keyed (h := []) hs' (by simp [NoOverflow]), ?_, hroom'⟩, by simp [hphase']⟩
      exact .inr (.inr ⟨rfl, Nat.le_antisymm hs'.bounded (Nat.not_lt.1 hlt)⟩)
  · exact .inl ⟨hphase', hshared, hlength⟩

theorem leads_of_checking {shared : Shared} (hshared : s.shared = shared)
    (hphase : s.phase = .checking) (hnat : shared.nat = .nat)
    (hlimits : channelLimits.toNat < 0x80000000) :
    (hopClientLts channelLimits source).Leads (Proceeds source)
      (HopSwitch.Serves channelLimits shared) s := by
  subst hshared
  have hst : HopStep channelLimits source s .nat _ := .start hphase hnat
  have hkeyed : HopSwitch.Keyed channelLimits
      { s with phase := .starting channelLimits.toNat, unordered := [], id := 0 } :=
    ⟨List.nodup_nil, by simp, le_rfl, Nat.zero_le _, by simp, by simp⟩
  refine .step (.of_own rfl (by simp)) hst (leads_of_filling hkeyed (.inl ⟨_, rfl⟩) ?_)
  show (0 : Int32).toInt + channelLimits.toNat < 0x80000000 + ([] : List (Int32 × Phase)).length
  simp only [Int32.toInt_zero, List.length_nil]
  omega

theorem leads_of_waiting (hs : s.Attends source) (hphase : s.phase = .waiting)
    (hnat : s.shared.nat = .nat) (hlimits : channelLimits.toNat < 0x80000000) :
    (hopClientLts channelLimits source).Leads (Proceeds source)
      (HopSwitch.Serves channelLimits s.shared) s := by
  -- an event is there
  have hqueue : ∀ s' : HopSwitch, s'.phase = .waiting → s'.shared = s.shared →
      (s'.mediator.channels source).queue ≠ [] →
      (hopClientLts channelLimits source).Leads (Proceeds source)
        (HopSwitch.Serves channelLimits s.shared) s' := by
    intro s' hphase hshared hne
    obtain ⟨event, queue, hqueue⟩ := List.exists_cons_of_ne_nil hne
    have hn : ∃ channel, (s'.mediator.channels source).next = some (event, channel) := by
      rw [Channel.next, hqueue]
      exact ⟨_, rfl⟩
    obtain ⟨channel, hn⟩ := hn
    have hst : HopStep channelLimits source s' (.event event) _ := .event hphase hn
    exact .step (.of_own rfl (by simp)) hst (leads_of_checking hshared rfl hnat hlimits)
  -- an event is due
  have hdue : ∀ s' : HopSwitch, s'.Attends source → s'.phase = .waiting → s'.shared = s.shared →
      s'.mediator.Due source → (hopClientLts channelLimits source).Leads (Proceeds source)
        (HopSwitch.Serves channelLimits s.shared) s' := by
    rintro s' hs hphase hshared (hne | ⟨r, event, hpending⟩)
    · exact hqueue s' hphase hshared hne
    · obtain ⟨post, hv⟩ := hs.served (by simp [hphase]) (by simp [hphase])
      obtain ⟨answer, mediator, hsend, hne⟩ := hv.sends hs.mediator hpending
      have hst : HopStep channelLimits source s' (.mediator (.send r source event answer))
          { s' with mediator } :=
        .mediator ⟨fun _ => ⟨by simp, by simp⟩, rfl, by simp, by simp⟩ hsend
      exact .step ⟨.inr (.inr ⟨r, event, answer, rfl⟩), by simp [NoOverflow]⟩ hst
        (hqueue _ hphase hshared hne)
  rcases hs.awake hphase hnat with hne | hd
  · -- a call of `set_nat` has still to raise its event
    obtain ⟨state, unraised, hun⟩ := List.exists_cons_of_ne_nil hne
    have hst : HopStep channelLimits source s (.raise state) _ := .raise [] state unraised hun
    obtain ⟨post, hv⟩ := hs.served (by simp [hphase]) (by simp [hphase])
    have hd := (MediatorStep.raise s.mediator (.network state)).due hs.mediator hv
      ⟨by simp, by simp⟩ rfl (.inr ⟨_, _, rfl, rfl⟩)
    exact .step ⟨.inr (.inl ⟨state, rfl⟩), by simp [NoOverflow]⟩ hst
      (hdue _ (hst.attends hs) hphase rfl hd)
  · exact hdue s hs hphase rfl hd

/-- Behind a NAT, in every state in which no task has panicked. -/
theorem leads_of_run {h : List HopClientOp}
    (hr : (hopClientLts channelLimits source).RunWhere NoOverflow h s)
    (hunwound : s.phase ≠ .unwound) (hnat : s.shared.nat = .nat)
    (hroom : s.id.toInt + channelLimits.toNat < 0x80000000) :
    s.phase = .serving ∧ s.unordered ≠ [] ∨
      (hopClientLts channelLimits source).Leads (Proceeds source)
        (HopSwitch.Serves channelLimits s.shared) s := by
  have hs := hopClientLts_attends hr.run
  have hkeyed := hopClientLts_keyed hr
  have hlimits : channelLimits.toNat < 0x80000000 := by
    have := hkeyed.nonneg
    omega
  have hroom' : s.id.toInt + channelLimits.toNat < 0x80000000 + s.unordered.length := by omega
  cases hphase : s.phase with
  | binding =>
    have hst : HopStep channelLimits source s .bind _ := .bind hphase
    exact .inr (.step (.of_own rfl (by simp)) hst (leads_of_checking rfl rfl hnat hlimits))
  | checking => exact .inr (leads_of_checking rfl hphase hnat hlimits)
  | waiting => exact .inr (leads_of_waiting hs hphase hnat hlimits)
  | starting rounds => exact .inr (leads_of_filling hkeyed (.inl ⟨rounds, hphase⟩) hroom')
  | serving =>
    by_cases hempty : s.unordered = []
    · have hst : HopStep channelLimits source s .drained _ := .drained hphase hempty
      exact .inr (.step (.of_own rfl (by simp)) hst (leads_of_checking rfl rfl hnat hlimits))
    · exact .inl ⟨rfl, hempty⟩
  | rechecking =>
    have hst : HopStep channelLimits source s .nat _ := .resume hphase hnat
    have hkeyed' := hst.keyed (h := []) hkeyed (by simp [NoOverflow])
    exact .inr (.step (.of_own rfl (by simp)) hst (leads_of_filling hkeyed' (.inr rfl) hroom'))
  | refilling => exact .inr (leads_of_filling hkeyed (.inr hphase) hroom')
  | returned => exact absurd hphase hs.running
  | unwound => exact absurd hphase hunwound

/-- **Behind a NAT, the hop client gets back to work**, unless a task has panicked: then the hop
client has ended.  In every other state of every run in which the switch is behind a NAT, a task is
running, or the steps of the hop client, and of the calls of `set_nat` that are in progress, lead to
a state in which as many tasks are running as the limit says: no change of the NAT state is missed.
The keys of these tasks have to fit into an `i32`. -/
theorem hop_client_resumes (channelLimits : UInt64) (source : XStackId) (h : List HopClientOp)
    (s : HopSwitch) (hr : (hopClientLts channelLimits source).RunWhere NoOverflow h s) :
    (∃ op ∈ h, op.Panics) ∧ s.phase = .unwound ∨
      (∀ op ∈ h, ¬ op.Panics) ∧ s.phase ≠ .returned ∧ s.phase ≠ .unwound ∧
        (s.shared.nat = .nat → s.id.toInt + channelLimits.toNat < 0x80000000 →
          s.phase = .serving ∧ s.unordered ≠ [] ∨
            (hopClientLts channelLimits source).Leads (Proceeds source)
              (HopSwitch.Serves channelLimits s.shared) s) := by
  have hunwound := hopClientLts_unwound_iff hr.run
  by_cases hphase : s.phase = .unwound
  · exact .inl ⟨hunwound.1 hphase, hphase⟩
  · exact .inr ⟨fun op hop hpanics => hphase (hunwound.2 ⟨op, hop, hpanics⟩),
      (hopClientLts_attends hr.run).running, hphase, leads_of_run hr hphase⟩

end Progress

section Sample

/-- A `FuturesUnorderedMap` that drops a future when another one is inserted with its key. -/
@[reducible] def FuturesMap.replacing : FuturesMap where
  insert futures key future := futures.filter (fun entry => entry.1 ≠ key) ++ [(key, future)]

attribute [local instance] FuturesMap.replacing Libp2p.ed25519

theorem FuturesMap.replacing_lawful : FuturesMap.Lawful where
  insert_of_fresh {κ φ _ futures key} hfresh future := by
    refine congrArg (· ++ [(key, future)]) (List.filter_eq_self.2 fun entry hmem => ?_)
    simpa using ne_of_mem_of_not_mem (List.mem_map_of_mem hmem) hfresh

attribute [local instance] FuturesMap.replacing_lawful

/-- A mediator whose first id has been drawn. -/
def drawnMediator : MediatorState := ⟨∅, fun _ => .new 0, 1, [⟨0⟩], ∅, 0⟩

/-- A hop client that is about to bind its event source. -/
def hopStart (state : AutoNAT) : HopSwitch :=
  ⟨drawnMediator, ⟨∅, state, 0, 0⟩, [], .binding, [], 0⟩

theorem run_hopStart (channelLimits : UInt64) (state : AutoNAT) :
    (hopClientLts channelLimits ⟨0⟩).RunWhere NoOverflow [] (hopStart state) :=
  .start ⟨drawnMediator, state, 0, [],
    ⟨_, .snoc (.start ⟨fun _ => .new 0, rfl⟩) (.newId _)⟩, List.mem_cons_self, rfl⟩

/-- The switch finds out that it is behind a NAT while the hop client waits. -/
theorem hop_client_wakes : ∃ s,
    (hopClientLts 2 ⟨0⟩).RunWhere NoOverflow [.bind, .nat, .setNat .nat] s ∧ s.phase = .waiting ∧
    (hopClientLts 2 ⟨0⟩).Leads (Proceeds ⟨0⟩) (HopSwitch.Serves 2 s.shared) s := by
  have bound := (run_hopStart 2 .publicNode).snoc (by simp [NoOverflow]) (.bind rfl)
  obtain ⟨s, waiting, hphase, hid⟩ : ∃ s,
      (hopClientLts 2 ⟨0⟩).RunWhere NoOverflow [.bind, .nat] s ∧ s.phase = .waiting ∧ s.id = 0 :=
    ⟨_, bound.snoc (by simp [NoOverflow]) (.wait rfl (by decide)), rfl, rfl⟩
  have woken := waiting.snoc (by simp [NoOverflow]) (.setNat s .nat)
  refine ⟨_, woken, hphase, ?_⟩
  rcases hop_client_resumes 2 ⟨0⟩ _ _ woken with ⟨-, hunwound⟩ | ⟨-, -, -, hworks⟩
  · cases hphase.symm.trans hunwound
  · refine (hworks rfl ?_).resolve_left fun h => ?_
    · show s.id.toInt + (2 : UInt64).toNat < 0x80000000
      rw [hid]
      decide
    · cases hphase.symm.trans h.1

/-- An answer that grants a reservation for ever. -/
def foreverMessage : HopMessage := ⟨some 2, some ⟨some 0xffffffffffffffff, []⟩, none, some 100⟩

theorem foreverMessage_endless : foreverMessage.Endless :=
  ⟨⟨rfl, rfl⟩, _, _, rfl, rfl, by decide⟩

/-- The only task of a hop client asks a relay for a reservation. -/
theorem run_reserving (peerId : PeerId) : ∃ s,
    (hopClientLts 1 ⟨0⟩).RunWhere NoOverflow [.bind, .nat, .insert, .done,
      .task 0 (.chosen [peerId]), .task 0 .opened] s ∧
    s.phase = .serving ∧ s.unordered = [(0, .reserving peerId)] := by
  have bound := (run_hopStart 1 .nat).snoc (by simp [NoOverflow]) (.bind rfl)
  have starting := bound.snoc (by simp [NoOverflow]) (.start rfl rfl)
  obtain ⟨⟨_, _, _, _, _, _⟩, serving, hphase, hunordered⟩ : ∃ s,
      (hopClientLts 1 ⟨0⟩).RunWhere NoOverflow [.bind, .nat, .insert, .done] s ∧
      s.phase = .serving ∧ s.unordered = [(0, .choosing)] :=
    ⟨_, (starting.snoc (fun _ => by decide) (.insert rfl)).snoc (by simp [NoOverflow])
      (.started rfl), rfl, rfl⟩
  cases hphase
  cases hunordered
  have connecting := serving.snoc (l := .task 0 (.chosen [peerId])) (by simp [NoOverflow])
    (.task rfl rfl (.event (by simp)) rfl)
  exact ⟨_, connecting.snoc (by simp [NoOverflow]) (.task rfl rfl (.event (by simp)) rfl), rfl, rfl⟩

/-- The relay grants it for ever: the task is dropped, and the hop client has ended. -/
theorem hop_client_refines_forever : ∃ s,
    (hopClientLts 1 ⟨0⟩).RunWhere NoOverflow [.bind, .nat, .insert, .done,
      .task 0 (.chosen [keyB.toPeerId]), .task 0 .opened, .answer 0 foreverMessage] s ∧
    s.phase = .unwound ∧ s.unordered = [] ∧ ∃ tasks, (hopLts 1).Run
      [.spawn, .task 0 (.chosen [keyB.toPeerId]), .task 0 .opened] ⟨s.shared, tasks⟩ := by
  have hnone := HopMessage.taskEvent_eq_none_iff.2 foreverMessage_endless
  obtain ⟨s, reserving, hphase, hunordered⟩ := run_reserving keyB.toPeerId
  have hends : EndsWait 0 (.answer 0 foreverMessage) (.reserving keyB.toPeerId) none :=
    hnone ▸ .answer foreverMessage
  have unwound := reserving.snoc (by simp [NoOverflow])
    (.panicked hphase (by rw [hunordered]; rfl) hends)
  obtain ⟨tasks, hpool, -⟩ := hop_client_refines 1 ⟨0⟩ _ _ unwound
  refine ⟨_, unwound, rfl, rfl, tasks, ?_⟩
  simpa [HopClientOp.hop, hnone] using hpool

end Sample

end XStack
