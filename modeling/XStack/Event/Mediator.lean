import Mathlib.Data.PNat.Defs
import Mathlib.Logic.Function.Basic
import XStack.Data.Channel
import XStack.Data.HashMap
import XStack.Event.Basic
import XStack.Lts.Basic
import XStack.Stream.Basic

/-!
# The event mediator

`SyncEventMediator` hands every event that is raised to the listeners bound to its name.  `raise`
clones the senders of these listeners under the lock, sends the event through the clones without the
lock, one after the other, and takes the lock again to remove the listeners that are gone.  Each of
these is a step of the model, so that other calls, and the listeners, can come in between.

A channel is known by the id of the listener it was made for, and the ids come from
`XStackId::default`, which counts them.

## Main definitions

* `SyncEventMediator` with `bind`, `removeAll`, `close` : the critical sections.
* `cloneSenders` : the senders a call of `raise` uses.
* `mediatorLts` : the mediator, its listeners and the calls of `raise` that are running.

## Main results

* `SyncEventMediator.entry_bind`, `entry_removeAll`, `entry_close` : what the critical sections do
  to the sender that is kept for a listener.
* `cloneSenders_spec` : every sender is cloned once.
-/

namespace XStack

/-- `Sender`: its channel and its number there. -/
structure Sender where
  /-- The channel. -/
  chan : XStackId
  /-- The number in the channel. -/
  slot : ℕ
  deriving DecidableEq, Repr

/-- `SyncEventMediator` without its mutex: for every event name, the senders of the listeners. -/
abbrev SyncEventMediator := HashMap String (HashMap XStackId Sender)

/-- The channels; one that has not been made yet is never looked at. -/
abbrev Channels := XStackId → Channel Event

namespace SyncEventMediator

/-- `DriverEventMediator::bind`, after the channel has been made. -/
def bind (raw : SyncEventMediator) (id : XStackId) (eventName : String) (sender : Sender) :
    SyncEventMediator :=
  match raw.get eventName with
  | some senders => raw.insert eventName (senders.insert id sender)
  | none => raw.insert eventName (HashMap.insert ∅ id sender)

/-- The senders of the listeners bound to an event name. -/
def senders (raw : SyncEventMediator) (eventName : String) : List (XStackId × Sender) :=
  match raw.get eventName with
  | some senders => senders.iter
  | none => []

/-- The end of `DriverEventMediator::raise`: the listeners that are gone are removed. -/
def removeAll (raw : SyncEventMediator) (eventName : String) (disconnected : List XStackId) :
    SyncEventMediator :=
  match raw.get eventName with
  | some map => raw.insert eventName (disconnected.foldl HashMap.remove map)
  | none => raw

/-- `DriverEventMediator::close`, for a traversal of the map. -/
def close (raw : SyncEventMediator) (values : List (String × HashMap XStackId Sender))
    (id : XStackId) : SyncEventMediator :=
  match values.find? fun entry => entry.2.containsKey id with
  | some (eventName, map) => raw.insert eventName (map.remove id)
  | none => raw

/-- The sender that is kept for a listener under an event name. -/
def entry (raw : SyncEventMediator) (eventName : String) (id : XStackId) : Option Sender :=
  (raw.get eventName).bind fun senders => senders.get id

variable {raw : SyncEventMediator} {name name' : String} {id id' : XStackId} {sender : Sender}

theorem entry_insert (raw : SyncEventMediator) (name name' : String)
    (map : HashMap XStackId Sender) (id : XStackId) :
    entry (raw.insert name map) name' id =
      if name' = name then map.get id else raw.entry name' id := by
  rw [entry, HashMap.get_insert]
  split_ifs <;> rfl

theorem mem_senders : (id, sender) ∈ raw.senders name ↔ raw.entry name id = some sender := by
  unfold senders entry
  rcases raw.get name with _ | map
  · simp
  · exact HashMap.mem_iter

theorem nodup_senders (raw : SyncEventMediator) (name : String) :
    ((raw.senders name).map Prod.fst).Nodup := by
  unfold senders
  split
  · exact HashMap.nodup_iter _
  · exact List.nodup_nil

theorem entry_bind (raw : SyncEventMediator) (id id' : XStackId) (name name' : String)
    (sender : Sender) :
    (raw.bind id name sender).entry name' id' =
      if name' = name ∧ id' = id then some sender else raw.entry name' id' := by
  unfold bind
  rcases hget : raw.get name with _ | map
  · by_cases hn : name' = name <;> by_cases hi : id' = id <;>
      simp [HashMap.get_insert, entry, hn, hi, hget]
  · by_cases hn : name' = name <;> by_cases hi : id' = id <;>
      simp [HashMap.get_insert, entry, hn, hi, hget]

theorem entry_removeAll (raw : SyncEventMediator) (name name' : String) (ids : List XStackId)
    (id : XStackId) :
    (raw.removeAll name ids).entry name' id =
      if name' = name ∧ id ∈ ids then none else raw.entry name' id := by
  unfold removeAll
  rcases hget : raw.get name with _ | map
  · by_cases hn : name' = name
    · simp [entry, hn, hget]
    · simp [hn]
  · rw [entry_insert, HashMap.get_foldl_remove]
    by_cases hn : name' = name
    · simp [entry, hn, hget]
    · simp [hn]

theorem entry_close {values : List (String × HashMap XStackId Sender)}
    (hv : values.Perm (HashMap.iter raw))
    (hs : (raw.close values id).entry name id' = some sender) :
    raw.entry name id' = some sender := by
  unfold close at hs
  split at hs
  · next eventName map hfind =>
    rw [entry_insert] at hs
    split_ifs at hs with hn
    · have hget : raw.get name = some map :=
        hn ▸ HashMap.mem_iter.1 (hv.subset (List.mem_of_find?_eq_some hfind))
      rw [entry, hget]
      exact (HashMap.get_of_get_remove hs).2
    · exact hs
  · exact hs

theorem entry_close_of_ne {values : List (String × HashMap XStackId Sender)}
    (hv : values.Perm (HashMap.iter raw)) (hne : id' ≠ id) :
    (raw.close values id).entry name id' = raw.entry name id' := by
  unfold close
  split
  · next eventName map hfind =>
    rw [entry_insert]
    split_ifs with hn
    · have hget : raw.get name = some map :=
        hn ▸ HashMap.mem_iter.1 (hv.subset (List.mem_of_find?_eq_some hfind))
      rw [entry, hget, HashMap.get_remove_ne hne]
      rfl
    · rfl
  · rfl

end SyncEventMediator

/-- The clones of some senders, and the channels afterwards. -/
def cloneSenders : List (XStackId × Sender) → Channels → List (XStackId × Sender) × Channels
  | [], channels => ([], channels)
  | (id, sender) :: senders, channels =>
    let (slot, channel) := (channels sender.chan).cloneSender
    let (clones, channels) := cloneSenders senders (Function.update channels sender.chan channel)
    ((id, ⟨sender.chan, slot⟩) :: clones, channels)

/-- **Every sender is cloned once**, if each of them is the sender of its own listener. -/
theorem cloneSenders_spec (senders : List (XStackId × Sender)) (channels : Channels)
    (hchan : ∀ entry ∈ senders, entry.2.chan = entry.1) (hnodup : (senders.map Prod.fst).Nodup) :
    (cloneSenders senders channels).1 =
        senders.map (fun entry => (entry.1, ⟨entry.1, (channels entry.1).cloneSender.1⟩)) ∧
      ∀ id, (cloneSenders senders channels).2 id =
        if id ∈ senders.map Prod.fst then (channels id).cloneSender.2 else channels id := by
  induction senders generalizing channels with
  | nil => exact ⟨rfl, fun id => by simp [cloneSenders]⟩
  | cons entry senders ih =>
    obtain ⟨id, sender⟩ := entry
    obtain ⟨hfresh, hnodup⟩ := List.nodup_cons.1 hnodup
    have hid : sender.chan = id := hchan _ List.mem_cons_self
    have hrest := ih (Function.update channels sender.chan (channels sender.chan).cloneSender.2)
      (fun entry hmem => hchan entry (List.mem_cons_of_mem _ hmem)) hnodup
    rw [hid] at hrest
    -- the channels of the other listeners are not touched by the first clone
    have hother : ∀ id' ∈ senders.map Prod.fst,
        Function.update channels id (channels id).cloneSender.2 id' = channels id' :=
      fun id' hmem => Function.update_of_ne (ne_of_mem_of_not_mem hmem hfresh) _ _
    constructor
    · have hclones : (cloneSenders ((id, sender) :: senders) channels).1 =
          (id, ⟨id, (channels id).cloneSender.1⟩) :: (cloneSenders senders
            (Function.update channels id (channels id).cloneSender.2)).1 := by
        rw [cloneSenders, hid]
      rw [hclones, hrest.1, List.map_cons, List.cons.injEq]
      refine ⟨rfl, List.map_congr_left fun entry hmem => ?_⟩
      rw [hother _ (List.mem_map_of_mem hmem)]
    · intro id'
      have hchannels : (cloneSenders ((id, sender) :: senders) channels).2 =
          (cloneSenders senders (Function.update channels id (channels id).cloneSender.2)).2 := by
        rw [cloneSenders, hid]
      rw [hchannels, hrest.2, List.map_cons]
      by_cases hi : id' = id
      · subst hi
        rw [if_neg hfresh, if_pos List.mem_cons_self, Function.update_self]
      · by_cases hmem : id' ∈ senders.map Prod.fst
        · rw [if_pos hmem, if_pos (List.mem_cons_of_mem _ hmem), hother _ hmem]
        · rw [if_neg hmem, if_neg (by simpa [hi] using hmem), Function.update_of_ne hi]

/-- A running call of `raise`, after its first critical section. -/
structure Raise where
  /-- The event. -/
  event : Event
  /-- The clones through which the event has still to be sent. -/
  senders : List (XStackId × Sender)
  /-- The listeners found to be gone. -/
  disconnected : List XStackId

/-- The listener is remembered if its receiver is gone. -/
def Raise.sent (raise : Raise) (id : XStackId) (senders : List (XStackId × Sender)) :
    Except TrySendError Unit → Raise
  | .error .disconnected =>
    { raise with senders := senders, disconnected := raise.disconnected ++ [id] }
  | _ => { raise with senders := senders }

/-- The mediator, its listeners and the calls that use them. -/
structure MediatorState where
  /-- The mediator. -/
  raw : SyncEventMediator
  /-- The channels. -/
  channels : Channels
  /-- The counter of `XStackId::default`, which does not wrap around here. -/
  nextId : ℕ
  /-- The ids that have been drawn and not been bound yet. -/
  drawn : List XStackId
  /-- The running calls of `raise`, which are numbered. -/
  raises : HashMap ℕ Raise
  /-- The number of calls of `raise` so far; only the model numbers them. -/
  nextRaise : ℕ

namespace MediatorState

/-- `DriverEventMediator::bind`. -/
def bind (s : MediatorState) (id : XStackId) (eventName : String) (buffer : ℕ+) : MediatorState :=
  { s with
    raw := s.raw.bind id eventName ⟨id, 0⟩
    channels := Function.update s.channels id (.new buffer)
    drawn := s.drawn.erase id }

/-- `DriverEventMediator::raise`, up to the loop. -/
def raise (s : MediatorState) (event : Event) : MediatorState :=
  { s with
    channels := (cloneSenders (s.raw.senders event.toName) s.channels).2
    raises := s.raises.insert s.nextRaise
      ⟨event, (cloneSenders (s.raw.senders event.toName) s.channels).1, []⟩
    nextRaise := s.nextRaise + 1 }

/-- The answer of the sender of a listener in a call of `raise`. -/
def answer (s : MediatorState) (raise : Raise) (sender : Sender) : Except TrySendError Unit :=
  ((s.channels sender.chan).trySend sender.slot raise.event).1

/-- `DriverEventMediator::raise`, a round of the loop; `senders` are left to be used. -/
def send (s : MediatorState) (r : ℕ) (raise : Raise) (id : XStackId) (sender : Sender)
    (senders : List (XStackId × Sender)) : MediatorState :=
  { s with
    channels := Function.update s.channels sender.chan
      ((s.channels sender.chan).trySend sender.slot raise.event).2
    raises := s.raises.insert r (raise.sent id senders (s.answer raise sender)) }

/-- `DriverEventMediator::raise`, after the loop. -/
def raised (s : MediatorState) (r : ℕ) (raise : Raise) : MediatorState :=
  { s with
    raw := s.raw.removeAll raise.event.toName raise.disconnected
    raises := s.raises.remove r }

/-- The channel of a listener has changed. -/
def setChannel (s : MediatorState) (id : XStackId) (channel : Channel Event) : MediatorState :=
  { s with channels := Function.update s.channels id channel }

section Fields

variable (s : MediatorState) (r : ℕ) (raise : Raise) (id id' : XStackId) (eventName : String)
  (buffer : ℕ+) (event : Event) (sender : Sender) (senders : List (XStackId × Sender))
  (channel : Channel Event)

@[simp] theorem bind_raw :
    (s.bind id eventName buffer).raw = s.raw.bind id eventName ⟨id, 0⟩ := rfl

theorem bind_channels : (s.bind id eventName buffer).channels id' =
    if id' = id then .new buffer else s.channels id' := Function.update_apply ..

@[simp] theorem raise_channels :
    (s.raise event).channels = (cloneSenders (s.raw.senders event.toName) s.channels).2 := rfl

@[simp] theorem raise_raises : (s.raise event).raises = s.raises.insert s.nextRaise
    ⟨event, (cloneSenders (s.raw.senders event.toName) s.channels).1, []⟩ := rfl

@[simp] theorem send_raises : (s.send r raise id sender senders).raises =
    s.raises.insert r (raise.sent id senders (s.answer raise sender)) := rfl

theorem send_channels : (s.send r raise id sender senders).channels id' =
    if id' = sender.chan then ((s.channels id').trySend sender.slot raise.event).2
    else s.channels id' := by
  refine (Function.update_apply ..).trans ?_
  split_ifs with h
  · rw [h]
  · rfl

@[simp] theorem raised_raw : (s.raised r raise).raw =
    s.raw.removeAll raise.event.toName raise.disconnected := rfl

@[simp] theorem raised_raises : (s.raised r raise).raises = s.raises.remove r := rfl

theorem setChannel_channels : (s.setChannel id channel).channels id' =
    if id' = id then channel else s.channels id' := Function.update_apply ..

end Fields

end MediatorState

/-- The operations with their answers. -/
inductive MediatorOp where
  /-- `XStackId::default`. -/
  | newId (id : XStackId)
  | bind (id : XStackId) (eventName : String) (buffer : ℕ+)
  /-- `raise` clones the senders. -/
  | raise (r : ℕ) (event : Event)
  /-- `raise` sends the event to a listener. -/
  | send (r : ℕ) (id : XStackId) (event : Event) (answer : Except TrySendError Unit)
  /-- `raise` removes the listeners that are gone, and returns. -/
  | raised (r : ℕ)
  | close (id : XStackId)
  /-- A listener receives an event. -/
  | receive (id : XStackId) (event : Event)
  /-- A listener drops its receiver. -/
  | dropReceiver (id : XStackId)

/-- The steps of the mediator and its listeners. -/
inductive MediatorStep : MediatorState → MediatorOp → MediatorState → Prop
  | newId (s : MediatorState) : MediatorStep s (.newId ⟨s.nextId⟩)
      { s with nextId := s.nextId + 1, drawn := ⟨s.nextId⟩ :: s.drawn }
  | bind {s : MediatorState} (id eventName buffer) : id ∈ s.drawn →
      MediatorStep s (.bind id eventName buffer) (s.bind id eventName buffer)
  | raise (s : MediatorState) (event) :
      MediatorStep s (.raise s.nextRaise event) (s.raise event)
  | send {s : MediatorState} (r raise before id sender after) : s.raises.get r = some raise →
      raise.senders = before ++ (id, sender) :: after →
      MediatorStep s (.send r id raise.event (s.answer raise sender))
        (s.send r raise id sender (before ++ after))
  | raised {s : MediatorState} (r raise) : s.raises.get r = some raise → raise.senders = [] →
      MediatorStep s (.raised r) (s.raised r raise)
  | close {s : MediatorState} (id values) : values.Perm (HashMap.iter s.raw) →
      MediatorStep s (.close id) { s with raw := s.raw.close values id }
  | receive {s : MediatorState} (id event channel) :
      (s.channels id).next = some (event, channel) →
      MediatorStep s (.receive id event) (s.setChannel id channel)
  | dropReceiver (s : MediatorState) (id) :
      MediatorStep s (.dropReceiver id) (s.setChannel id (s.channels id).dropReceiver)

/-- The runs of a mediator. -/
def mediatorLts : Lts MediatorState MediatorOp where
  init s := ∃ channels, s = ⟨∅, channels, 0, [], ∅, 0⟩
  step := MediatorStep

end XStack
