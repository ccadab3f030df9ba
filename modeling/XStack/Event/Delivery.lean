import XStack.Event.Mediator

/-!
# No event is lost

A listener that keeps its receiver and is not closed gets every event of its name that is raised
after its `bind`, once and in order, however many events it has not received yet
(`events_not_lost`).  A send reports `Full` only if the sender is parked, and every call of `raise`
sends through clones of its own, which no other send can park.

## Main definitions

* `sent`, `received` : what a listener has been sent and has received.
* `MediatorState.Wf` : the invariant of the mediator.
* `Served` : the invariant about one listener since its `bind`.

## Main results

* `MediatorStep.wf`, `MediatorStep.served`, `raise_completes`.
* `events_not_lost`.
-/

namespace XStack

/-- The event an operation sends to a listener, with the call of `raise` that sends it. -/
def MediatorOp.sends (id : XStackId) : MediatorOp → Option (ℕ × Event)
  | .send r id' event (.ok ()) => if id' = id then some (r, event) else none
  | _ => none

/-- The event a listener receives. -/
def MediatorOp.receives (id : XStackId) : MediatorOp → Option Event
  | .receive id' event => if id' = id then some event else none
  | _ => none

/-- The events sent to a listener, with the calls of `raise` that sent them. -/
def sent (h : List MediatorOp) (id : XStackId) : List (ℕ × Event) :=
  h.filterMap (MediatorOp.sends id)

/-- The events a listener has received. -/
def received (h : List MediatorOp) (id : XStackId) : List Event :=
  h.filterMap (MediatorOp.receives id)

theorem sent_concat (h : List MediatorOp) (op : MediatorOp) (id : XStackId) :
    sent (h ++ [op]) id = sent h id ++ (op.sends id).toList := by
  rw [sent, List.filterMap_append, ← sent]
  rcases hop : op.sends id with _ | x <;> simp [hop]

theorem received_concat (h : List MediatorOp) (op : MediatorOp) (id : XStackId) :
    received (h ++ [op]) id = received h id ++ (op.receives id).toList := by
  rw [received, List.filterMap_append, ← received]
  rcases hop : op.receives id with _ | x <;> simp [hop]

namespace MediatorState

/-- The id has been bound, or drawn and given up. -/
def Known (s : MediatorState) (id : XStackId) : Prop := id.toNat < s.nextId ∧ id ∉ s.drawn

/-- A call of `raise` has still to send its event to the listener. -/
def Owes (s : MediatorState) (r : ℕ) (raise : Raise) (id : XStackId) (sender : Sender) : Prop :=
  s.raises.get r = some raise ∧ (id, sender) ∈ raise.senders

theorem owes_insert {s s' : MediatorState} {r₀ : ℕ} {raise₀ : Raise}
    (h : s'.raises = s.raises.insert r₀ raise₀) {r : ℕ} {raise : Raise} {id : XStackId}
    {sender : Sender} :
    s'.Owes r raise id sender ↔ (r = r₀ ∧ raise = raise₀ ∧ (id, sender) ∈ raise₀.senders) ∨
      (r ≠ r₀ ∧ s.Owes r raise id sender) := by
  rw [Owes, h, HashMap.get_insert]
  by_cases hr : r = r₀
  · simp only [hr, if_pos, Option.some.injEq, true_and, ne_eq, not_true, false_and, or_false]
    constructor <;> rintro ⟨rfl, hmem⟩ <;> exact ⟨rfl, hmem⟩
  · simp only [hr, if_neg, ne_eq, not_false_eq_true, false_and, true_and, false_or]
    exact Iff.rfl

/-- The invariant of the mediator. -/
structure Wf (s : MediatorState) : Prop where
  drawn_lt : ∀ id ∈ s.drawn, id.toNat < s.nextId
  drawn_nodup : s.drawn.Nodup
  /-- The listeners are known. -/
  entry : ∀ name id sender, s.raw.entry name id = some sender → s.Known id ∧ sender.chan = id
  /-- The parked senders of a channel are among its senders. -/
  channel : ∀ id, s.Known id → (s.channels id).Wf
  running : ∀ r raise, s.raises.get r = some raise → r < s.nextRaise
  /-- No clone is parked before it is used. -/
  owes : ∀ r raise id sender, s.Owes r raise id sender → s.Known id ∧ sender.chan = id ∧
    sender.slot < (s.channels id).senders ∧ sender.slot ∉ (s.channels id).parked
  /-- Every call of `raise` has its own clones. -/
  distinct : ∀ r r' raise raise' id sender sender', s.Owes r raise id sender →
    s.Owes r' raise' id sender' → sender.slot = sender'.slot → r = r'
  /-- A call of `raise` has one clone for each listener. -/
  nodup : ∀ r raise, s.raises.get r = some raise → (raise.senders.map Prod.fst).Nodup
  /-- Only listeners that are gone are removed. -/
  gone : ∀ r raise, s.raises.get r = some raise → ∀ id ∈ raise.disconnected,
    s.Known id ∧ (s.channels id).isOpen = false

end MediatorState

section Raise

variable (raise : Raise) (id : XStackId) (senders : List (XStackId × Sender))
  (answer : Except TrySendError Unit)

theorem Raise.sent_senders : (raise.sent id senders answer).senders = senders := by
  unfold Raise.sent
  split <;> rfl

theorem Raise.sent_event : (raise.sent id senders answer).event = raise.event := by
  unfold Raise.sent
  split <;> rfl

variable {raise id senders answer} in
theorem Raise.mem_sent_disconnected {id' : XStackId}
    (h : id' ∈ (raise.sent id senders answer).disconnected) :
    id' ∈ raise.disconnected ∨ id' = id ∧ answer = .error .disconnected := by
  unfold Raise.sent at h
  split at h
  · rcases List.mem_append.1 h with hold | hnew
    · exact .inl hold
    · exact .inr ⟨List.mem_singleton.1 hnew, rfl⟩
  · exact .inl h

end Raise

variable {s s' : MediatorState} {op : MediatorOp}

namespace MediatorState.Wf

theorem newId (hw : s.Wf) :
    Wf { s with nextId := s.nextId + 1, drawn := ⟨s.nextId⟩ :: s.drawn } := by
  have hknown : ∀ id, s.Known id →
      Known { s with nextId := s.nextId + 1, drawn := ⟨s.nextId⟩ :: s.drawn } id := by
    rintro id ⟨hlt, hnot⟩
    refine ⟨Nat.lt_succ_of_lt hlt, fun hmem => ?_⟩
    rcases List.mem_cons.1 hmem with rfl | hmem
    · exact Nat.lt_irrefl _ hlt
    · exact hnot hmem
  refine ⟨?drawn_lt, ?drawn_nodup, ?entry, ?channel, hw.running, ?owes, hw.distinct, hw.nodup,
    ?gone⟩
  case drawn_lt =>
    intro id hmem
    rcases List.mem_cons.1 hmem with rfl | hmem
    · exact Nat.lt_succ_self _
    · exact Nat.lt_succ_of_lt (hw.drawn_lt id hmem)
  case drawn_nodup =>
    exact List.nodup_cons.2 ⟨fun hmem => Nat.lt_irrefl _ (hw.drawn_lt _ hmem), hw.drawn_nodup⟩
  case entry =>
    intro name id sender he
    exact (hw.entry name id sender he).imp_left (hknown id)
  case channel =>
    intro id hk
    obtain ⟨hlt, hnot⟩ := hk
    rw [List.mem_cons, not_or] at hnot
    refine hw.channel id ⟨Nat.lt_of_le_of_ne (Nat.lt_succ_iff.1 hlt) fun he => hnot.1 ?_, hnot.2⟩
    exact congrArg XStackId.mk he
  case owes =>
    intro r raise id sender ho
    exact (hw.owes r raise id sender ho).imp_left (hknown id)
  case gone =>
    intro r raise hget id hmem
    exact (hw.gone r raise hget id hmem).imp_left (hknown id)

theorem bind (hw : s.Wf) {id : XStackId} (eventName : String) (buffer : ℕ+) (hid : id ∈ s.drawn) :
    (s.bind id eventName buffer).Wf := by
  have hne : ∀ id', s.Known id' → id' ≠ id := fun id' hk => ne_of_mem_of_not_mem hid hk.2 |>.symm
  have hknown : ∀ id', s.Known id' → id'.toNat < s.nextId ∧ id' ∉ s.drawn.erase id :=
    fun id' hk => ⟨hk.1, fun hmem => hk.2 (List.mem_of_mem_erase hmem)⟩
  refine ⟨fun id' hmem => hw.drawn_lt id' (List.mem_of_mem_erase hmem), hw.drawn_nodup.erase id,
    ?entry, ?channel, hw.running, ?owes, hw.distinct, hw.nodup, ?gone⟩
  case entry =>
    intro name id' sender he
    rw [bind_raw, SyncEventMediator.entry_bind] at he
    split_ifs at he with hi
    · cases he
      rw [hi.2]
      exact ⟨⟨hw.drawn_lt id hid, fun hmem => (hw.drawn_nodup.mem_erase_iff.1 hmem).1 rfl⟩, rfl⟩
    · exact (hw.entry name id' sender he).imp_left (hknown id')
  case channel =>
    intro id' hk
    rw [bind_channels]
    split_ifs with hi
    · exact .new _
    · exact hw.channel id' ⟨hk.1, fun hmem => hk.2 ((List.mem_erase_of_ne hi).2 hmem)⟩
  case owes =>
    intro r raise id' sender ho
    have ho' := hw.owes r raise id' sender ho
    rw [bind_channels, if_neg (hne id' ho'.1)]
    exact ho'.imp_left (hknown id')
  case gone =>
    intro r raise hget id' hmem
    have hg := hw.gone r raise hget id' hmem
    rw [bind_channels, if_neg (hne id' hg.1)]
    exact hg.imp_left (hknown id')

theorem clones (hw : s.Wf) (name : String) :
    (∀ id sender, (id, sender) ∈ (cloneSenders (s.raw.senders name) s.channels).1 ↔
      (∃ sender', s.raw.entry name id = some sender') ∧
        sender = ⟨id, (s.channels id).cloneSender.1⟩) ∧
    ((cloneSenders (s.raw.senders name) s.channels).1.map Prod.fst).Nodup ∧
    ∀ id, (cloneSenders (s.raw.senders name) s.channels).2 id =
      if id ∈ (s.raw.senders name).map Prod.fst then (s.channels id).cloneSender.2
      else s.channels id := by
  have hnodup := s.raw.nodup_senders name
  obtain ⟨hclones, hchannels⟩ := cloneSenders_spec (s.raw.senders name) s.channels
    (fun entry hmem => (hw.entry name _ _ (SyncEventMediator.mem_senders.1 hmem)).2) hnodup
  refine ⟨fun id sender => ?_, ?_, hchannels⟩
  · rw [hclones, List.mem_map]
    constructor
    · rintro ⟨⟨id', sender'⟩, hmem, he⟩
      cases he
      exact ⟨⟨sender', SyncEventMediator.mem_senders.1 hmem⟩, rfl⟩
    · rintro ⟨⟨sender', he⟩, rfl⟩
      exact ⟨(id, sender'), SyncEventMediator.mem_senders.2 he, rfl⟩
  · rw [hclones, List.map_map]
    exact hnodup

theorem raise (hw : s.Wf) (event : Event) : (s.raise event).Wf := by
  obtain ⟨hclones, hnodup, hchannels⟩ := hw.clones event.toName
  have hsenders : ∀ id, (s.channels id).senders ≤ ((s.raise event).channels id).senders := by
    intro id
    rw [raise_channels, hchannels]
    split_ifs
    · exact Nat.le_succ _
    · exact Nat.le_refl _
  have hparked : ∀ id, ((s.raise event).channels id).parked = (s.channels id).parked := by
    intro id
    rw [raise_channels, hchannels]
    split_ifs <;> rfl
  -- a clone is known by a number that no sender of its channel has had before
  have hnew : ∀ id sender, (id, sender) ∈ (cloneSenders (s.raw.senders event.toName) s.channels).1 →
      s.Known id ∧ sender = ⟨id, (s.channels id).senders⟩ := by
    intro id sender hmem
    obtain ⟨⟨sender', he⟩, rfl⟩ := (hclones id sender).1 hmem
    exact ⟨(hw.entry _ id sender' he).1, rfl⟩
  refine ⟨hw.drawn_lt, hw.drawn_nodup, hw.entry, ?channel, ?running, ?owes, ?distinct, ?nodup,
    ?gone⟩
  case channel =>
    intro id hk
    rw [raise_channels, hchannels]
    split_ifs
    · exact (hw.channel id hk).cloneSender
    · exact hw.channel id hk
  case running =>
    intro r raise hget
    rw [raise_raises, HashMap.get_insert] at hget
    split_ifs at hget with hr
    · exact hr ▸ Nat.lt_succ_self _
    · exact Nat.lt_succ_of_lt (hw.running r raise hget)
  case owes =>
    intro r raise id sender ho
    rw [owes_insert (s.raise_raises event)] at ho
    rcases ho with ⟨-, -, hmem⟩ | ⟨-, ho⟩
    · obtain ⟨hk, rfl⟩ := hnew id sender hmem
      refine ⟨hk, rfl, ?_, ?_⟩
      · have hcloned : id ∈ (s.raw.senders event.toName).map Prod.fst := by
          obtain ⟨⟨sender', he⟩, -⟩ := (hclones id _).1 hmem
          exact List.mem_map_of_mem (SyncEventMediator.mem_senders.2 he)
        rw [raise_channels, hchannels, if_pos hcloned]
        exact Nat.lt_succ_self _
      · rw [hparked]
        exact (hw.channel id hk).cloneSender_unparked
    · obtain ⟨hk, hchan, hlt, hnot⟩ := hw.owes r raise id sender ho
      exact ⟨hk, hchan, Nat.lt_of_lt_of_le hlt (hsenders id), (hparked id).symm ▸ hnot⟩
  case distinct =>
    intro r r' raise raise' id sender sender' ho ho' hs
    rw [owes_insert (s.raise_raises event)] at ho ho'
    rcases ho with ⟨hr, -, hmem⟩ | ⟨-, ho⟩ <;> rcases ho' with ⟨hr', -, hmem'⟩ | ⟨-, ho'⟩
    · exact hr.trans hr'.symm
    · obtain ⟨-, rfl⟩ := hnew id sender hmem
      exact absurd hs (Nat.ne_of_gt (hw.owes r' raise' id sender' ho').2.2.1)
    · obtain ⟨-, rfl⟩ := hnew id sender' hmem'
      exact absurd hs (Nat.ne_of_lt (hw.owes r raise id sender ho).2.2.1)
    · exact hw.distinct r r' raise raise' id sender sender' ho ho' hs
  case nodup =>
    intro r raise hget
    rw [raise_raises, HashMap.get_insert] at hget
    split_ifs at hget
    · cases hget
      exact hnodup
    · exact hw.nodup r raise hget
  case gone =>
    intro r raise hget id hmem
    rw [raise_raises, HashMap.get_insert] at hget
    split_ifs at hget
    · cases hget
      cases hmem
    · refine (hw.gone r raise hget id hmem).imp_right fun hclosed => ?_
      rw [raise_channels, hchannels]
      split_ifs <;> exact hclosed

section Send

variable {r : ℕ} {raise : Raise} {id : XStackId} {sender : Sender}
  {before after : List (XStackId × Sender)}

theorem nodup_rest (hw : s.Wf) (hget : s.raises.get r = some raise)
    (hsenders : raise.senders = before ++ (id, sender) :: after) :
    id ∉ (before ++ after).map Prod.fst ∧ ((before ++ after).map Prod.fst).Nodup := by
  have hnodup := hw.nodup r raise hget
  rwa [hsenders, (List.perm_middle.map Prod.fst).nodup_iff, List.map_cons,
    List.nodup_cons] at hnodup

/-- What is owed after a sender has been used was owed before, through another sender. -/
theorem owes_of_send (hw : s.Wf) (hget : s.raises.get r = some raise)
    (hsenders : raise.senders = before ++ (id, sender) :: after) {r' : ℕ} {raise' : Raise}
    {id' : XStackId} {sender' : Sender}
    (ho : (s.send r raise id sender (before ++ after)).Owes r' raise' id' sender') :
    ¬ (id' = id ∧ r' = r) ∧ ∃ raise₀, s.Owes r' raise₀ id' sender' ∧
      raise₀.event = raise'.event := by
  rw [owes_insert (s.send_raises ..), Raise.sent_senders] at ho
  rcases ho with ⟨rfl, rfl, hmem⟩ | ⟨hr, ho⟩
  · refine ⟨?_, raise, ⟨hget, ?_⟩, (Raise.sent_event ..).symm⟩
    · rintro ⟨rfl, -⟩
      exact (hw.nodup_rest hget hsenders).1 (List.mem_map.2 ⟨_, hmem, rfl⟩)
    · rw [hsenders]
      exact List.mem_append.2 ((List.mem_append.1 hmem).imp_right (List.mem_cons_of_mem _))
  · exact ⟨fun h => hr h.2, raise', ho, rfl⟩

theorem send (hw : s.Wf) (hget : s.raises.get r = some raise)
    (hsenders : raise.senders = before ++ (id, sender) :: after) :
    (s.send r raise id sender (before ++ after)).Wf := by
  have howed : s.Owes r raise id sender := ⟨hget, by simp [hsenders]⟩
  obtain ⟨hk, hchan, hlt, -⟩ := hw.owes r raise id sender howed
  refine ⟨hw.drawn_lt, hw.drawn_nodup, hw.entry, ?channel, ?running, ?owes, ?distinct, ?nodup,
    ?gone⟩
  case channel =>
    intro id' hk'
    rw [send_channels]
    split_ifs with hi
    · rw [hi, hchan]
      exact (hw.channel id hk).trySend hlt
    · exact hw.channel id' hk'
  case running =>
    intro r' raise' hget'
    rw [send_raises, HashMap.get_insert] at hget'
    split_ifs at hget' with hr
    · exact hr ▸ hw.running r raise hget
    · exact hw.running r' raise' hget'
  case owes =>
    intro r' raise' id' sender' ho
    obtain ⟨hother, raise₀, hold, -⟩ := hw.owes_of_send hget hsenders ho
    obtain ⟨hk', hchan', hlt', hnot'⟩ := hw.owes r' raise₀ id' sender' hold
    refine ⟨hk', hchan', ?_⟩
    rw [send_channels]
    split_ifs with hi
    · rw [Channel.senders_trySend]
      refine ⟨hlt', fun hparked => ?_⟩
      rcases Channel.parked_trySend hparked with hp | hp
      · exact hnot' hp
      · -- the sender that is parked is none of those that are still to be used
        rw [hchan] at hi
        subst hi
        exact hother ⟨rfl, hw.distinct r' r raise₀ raise id' sender' sender hold howed hp⟩
    · exact ⟨hlt', hnot'⟩
  case distinct =>
    intro r₁ r₂ raise₁ raise₂ id' sender₁ sender₂ ho₁ ho₂ hs
    obtain ⟨-, raise₁', ho₁, -⟩ := hw.owes_of_send hget hsenders ho₁
    obtain ⟨-, raise₂', ho₂, -⟩ := hw.owes_of_send hget hsenders ho₂
    exact hw.distinct r₁ r₂ raise₁' raise₂' id' sender₁ sender₂ ho₁ ho₂ hs
  case nodup =>
    intro r' raise' hget'
    rw [send_raises, HashMap.get_insert] at hget'
    split_ifs at hget'
    · cases hget'
      rw [Raise.sent_senders]
      exact (hw.nodup_rest hget hsenders).2
    · exact hw.nodup r' raise' hget'
  case gone =>
    intro r' raise' hget' id' hmem
    have hopen : ((s.send r raise id sender (before ++ after)).channels id').isOpen =
        (s.channels id').isOpen := by
      rw [send_channels]
      split_ifs
      · exact Channel.isOpen_trySend ..
      · rfl
    rw [hopen]
    rw [send_raises, HashMap.get_insert] at hget'
    split_ifs at hget'
    · cases hget'
      rcases Raise.mem_sent_disconnected hmem with hold | ⟨rfl, hanswer⟩
      · exact hw.gone r raise hget id' hold
      · exact ⟨hk, hchan ▸ Channel.isOpen_of_disconnected hanswer⟩
    · exact hw.gone r' raise' hget' id' hmem

end Send

theorem raised (hw : s.Wf) (r : ℕ) (raise : Raise) :
    (s.raised r raise).Wf := by
  have howes : ∀ r' raise' id sender,
      (s.raised r raise).Owes r' raise' id sender → s.Owes r' raise' id sender :=
    fun r' raise' id sender ho => ⟨(HashMap.get_of_get_remove ho.1).2, ho.2⟩
  refine ⟨hw.drawn_lt, hw.drawn_nodup, fun name id sender he => ?_, hw.channel,
    fun r' raise' hget => hw.running r' raise' (HashMap.get_of_get_remove hget).2,
    fun r' raise' id sender ho => hw.owes r' raise' id sender (howes _ _ _ _ ho),
    fun r₁ r₂ raise₁ raise₂ id sender₁ sender₂ ho₁ ho₂ =>
      hw.distinct r₁ r₂ raise₁ raise₂ id sender₁ sender₂ (howes _ _ _ _ ho₁) (howes _ _ _ _ ho₂),
    fun r' raise' hget => hw.nodup r' raise' (HashMap.get_of_get_remove hget).2,
    fun r' raise' hget => hw.gone r' raise' (HashMap.get_of_get_remove hget).2⟩
  rw [raised_raw, SyncEventMediator.entry_removeAll] at he
  split_ifs at he
  exact hw.entry name id sender he

theorem close (hw : s.Wf) (id : XStackId) {values : List (String × HashMap XStackId Sender)}
    (hv : values.Perm (HashMap.iter s.raw)) : Wf { s with raw := s.raw.close values id } :=
  ⟨hw.drawn_lt, hw.drawn_nodup,
    fun name id' sender he => hw.entry name id' sender (SyncEventMediator.entry_close hv he),
    hw.channel, hw.running, hw.owes, hw.distinct, hw.nodup, hw.gone⟩

theorem update_channel (hw : s.Wf) (id : XStackId) (channel : Channel Event)
    (hchannel : (s.channels id).Wf → channel.Wf)
    (hsenders : channel.senders = (s.channels id).senders)
    (hparked : channel.parked ⊆ (s.channels id).parked)
    (hopen : (s.channels id).isOpen = false → channel.isOpen = false) :
    (s.setChannel id channel).Wf := by
  refine ⟨hw.drawn_lt, hw.drawn_nodup, hw.entry, ?channel, hw.running, ?owes, hw.distinct,
    hw.nodup, ?gone⟩
  case channel =>
    intro id' hk
    rw [setChannel_channels]
    split_ifs with hi
    · exact hchannel (hi ▸ hw.channel id' hk)
    · exact hw.channel id' hk
  case owes =>
    intro r raise id' sender ho
    obtain ⟨hk, hchan, hlt, hnot⟩ := hw.owes r raise id' sender ho
    refine ⟨hk, hchan, ?_⟩
    rw [setChannel_channels]
    split_ifs with hi
    · subst hi
      rw [hsenders]
      exact ⟨hlt, fun hmem => hnot (hparked hmem)⟩
    · exact ⟨hlt, hnot⟩
  case gone =>
    intro r raise hget id' hmem
    obtain ⟨hk, hclosed⟩ := hw.gone r raise hget id' hmem
    refine ⟨hk, ?_⟩
    rw [setChannel_channels]
    split_ifs with hi
    · exact hopen (hi ▸ hclosed)
    · exact hclosed

end MediatorState.Wf

theorem MediatorStep.wf (hw : s.Wf) (hst : MediatorStep s op s') : s'.Wf := by
  cases hst with
  | newId => exact hw.newId
  | bind id eventName buffer hid => exact hw.bind eventName buffer hid
  | raise event => exact hw.raise event
  | send r raise before id sender after hget hsenders => exact hw.send hget hsenders
  | raised r raise => exact hw.raised r raise
  | close id values hv => exact hw.close id hv
  | receive id event channel hn =>
    obtain ⟨queue, -, rfl⟩ := Channel.next_eq_some hn
    exact hw.update_channel id _ (fun h => h.next hn) rfl (fun _ => List.mem_of_mem_tail) fun h => h
  | dropReceiver id =>
    exact hw.update_channel id _ (fun _ => .dropReceiver _) rfl (List.nil_subset _) fun _ => rfl

theorem mediatorLts_wf (hr : mediatorLts.Reachable s) : s.Wf := by
  refine hr.invariant ?_ fun s op s' hw hst => MediatorStep.wf hw hst
  rintro s ⟨channels, rfl⟩
  constructor <;>
    simp [MediatorState.Known, MediatorState.Owes, SyncEventMediator.entry]

/-! ### A listener -/

/-- A call of `raise` has still to send its event to the listener. -/
def MediatorState.Pending (s : MediatorState) (id : XStackId) (r : ℕ) (event : Event) : Prop :=
  ∃ raise sender, s.Owes r raise id sender ∧ raise.event = event

/-- What holds of a listener since it was bound to `name`, as long as it has neither been closed nor
dropped its receiver; `post` is what has happened since. -/
structure Served (s : MediatorState) (id : XStackId) (name : String) (post : List MediatorOp) :
    Prop where
  known : s.Known id
  entry : ∃ sender, s.raw.entry name id = some sender
  only : ∀ name' sender, s.raw.entry name' id = some sender → name' = name
  isOpen : (s.channels id).isOpen = true
  /-- What has been sent has been received or waits in the channel. -/
  delivered : (sent post id).map Prod.snd = received post id ++ (s.channels id).queue
  /-- Every call of `raise` sends at most once. -/
  nodup : ((sent post id).map Prod.fst).Nodup
  due : ∀ r event, (r, event) ∈ sent post id → .raise r event ∈ post ∧ event.toName = name ∧
    r < s.nextRaise ∧ ∀ event', ¬ s.Pending id r event'
  pending : ∀ r event, s.Pending id r event → .raise r event ∈ post ∧ event.toName = name
  served : ∀ r event, .raise r event ∈ post → event.toName = name →
    (r, event) ∈ sent post id ∨ s.Pending id r event
  accepted : ∀ r event e, .send r id event (.error e) ∉ post

namespace Served

variable {id : XStackId} {name : String} {post : List MediatorOp}

theorem start {buffer : ℕ+} (hw : s.Wf) (hst : MediatorStep s (.bind id name buffer) s') :
    Served s' id name [] := by
  cases hst with | bind _ _ _ hid =>
  have hunknown : ¬ s.Known id := fun hk => hk.2 hid
  refine ⟨⟨hw.drawn_lt id hid, fun hmem => (hw.drawn_nodup.mem_erase_iff.1 hmem).1 rfl⟩,
    ⟨⟨id, 0⟩, ?entry⟩, ?only, ?isOpen, ?delivered, List.nodup_nil, ?due, ?pending, ?served,
    ?accepted⟩
  case entry =>
    rw [MediatorState.bind_raw, SyncEventMediator.entry_bind, if_pos ⟨rfl, rfl⟩]
  case only =>
    intro name' sender he
    rw [MediatorState.bind_raw, SyncEventMediator.entry_bind] at he
    split_ifs at he with hn
    · exact hn.1
    · exact absurd (hw.entry name' id sender he).1 hunknown
  case isOpen =>
    rw [MediatorState.bind_channels, if_pos rfl]
    rfl
  case delivered =>
    rw [MediatorState.bind_channels, if_pos rfl]
    rfl
  case due =>
    simp [sent]
  case pending =>
    rintro r event ⟨raise, sender, ho, -⟩
    exact absurd (hw.owes r raise id sender ho).1 hunknown
  case served =>
    simp
  case accepted =>
    simp

/-- The operation neither raises an event nor sends or receives one at the listener. -/
def Quiet (id : XStackId) (op : MediatorOp) : Prop :=
  op.receives id = none ∧ (∀ r event, op ≠ .raise r event) ∧
    ∀ r event answer, op ≠ .send r id event answer

theorem Quiet.sends (hq : Quiet id op) : op.sends id = none := by
  unfold MediatorOp.sends
  split
  · next r id' event =>
    by_cases hi : id' = id
    · exact absurd (by rw [hi]) (hq.2.2 r event (.ok ()))
    · rw [if_neg hi]
  · rfl

theorem quiet (hv : Served s id name post) (hq : Quiet id op) (hknown : s.Known id → s'.Known id)
    (hentry : ∀ name', s'.raw.entry name' id = s.raw.entry name' id)
    (hopen : (s'.channels id).isOpen = (s.channels id).isOpen)
    (hqueue : (s'.channels id).queue = (s.channels id).queue)
    (hpending : ∀ r event, s'.Pending id r event ↔ s.Pending id r event)
    (hnext : s'.nextRaise = s.nextRaise) : Served s' id name (post ++ [op]) := by
  have hsent : sent (post ++ [op]) id = sent post id := by
    rw [sent_concat, hq.sends]
    exact List.append_nil _
  have hreceived : received (post ++ [op]) id = received post id := by
    rw [received_concat, hq.1]
    exact List.append_nil _
  have hraise : ∀ {r event}, .raise r event ∈ post ++ [op] ↔ .raise r event ∈ post := by
    intro r event
    rw [List.mem_append, List.mem_singleton, or_iff_left (Ne.symm (hq.2.1 r event))]
  refine ⟨hknown hv.known, ?entry, ?only, hopen.trans hv.isOpen, ?delivered, ?nodup, ?due, ?pending,
    ?served, ?accepted⟩
  case entry =>
    rw [hentry]
    exact hv.entry
  case only =>
    intro name' sender he
    exact hv.only name' sender (hentry name' ▸ he)
  case delivered =>
    rw [hsent, hreceived, hqueue, hv.delivered]
  case nodup =>
    rw [hsent]
    exact hv.nodup
  case due =>
    intro r event hmem
    rw [hsent] at hmem
    obtain ⟨hr, hn, hlt, hnot⟩ := hv.due r event hmem
    exact ⟨hraise.2 hr, hn, hnext ▸ hlt, fun event' hp => hnot event' ((hpending r event').1 hp)⟩
  case pending =>
    intro r event hp
    exact (hv.pending r event ((hpending r event).1 hp)).imp_left hraise.2
  case served =>
    intro r event hmem hn
    rw [hsent, hpending]
    exact hv.served r event (hraise.1 hmem) hn
  case accepted =>
    intro r event e hmem
    rcases List.mem_append.1 hmem with hold | hnew
    · exact hv.accepted r event e hold
    · exact hq.2.2 r event _ (List.mem_singleton.1 hnew).symm

theorem raise (hv : Served s id name post) (hw : s.Wf) (event : Event)
    (hst : MediatorStep s (.raise s.nextRaise event) s') :
    Served s' id name (post ++ [.raise s.nextRaise event]) := by
  cases hst
  obtain ⟨hclones, -, hchannels⟩ := hw.clones event.toName
  -- cloning a sender leaves the queue alone
  have hchannel : ((cloneSenders (s.raw.senders event.toName) s.channels).2 id).isOpen =
      (s.channels id).isOpen ∧ ((cloneSenders (s.raw.senders event.toName) s.channels).2 id).queue =
      (s.channels id).queue := by
    rw [hchannels]
    split_ifs <;> exact ⟨rfl, rfl⟩
  -- the new call is pending, if the listener has its name
  have hpending : ∀ r event', (s.raise event).Pending id r event' ↔
      (r = s.nextRaise ∧ event' = event ∧ event.toName = name) ∨ s.Pending id r event' := by
    intro r event'
    constructor
    · rintro ⟨raise, sender, ho, rfl⟩
      rw [MediatorState.owes_insert rfl] at ho
      rcases ho with ⟨rfl, rfl, hmem⟩ | ⟨-, ho⟩
      · obtain ⟨⟨sender', he⟩, -⟩ := (hclones id sender).1 hmem
        exact .inl ⟨rfl, rfl, hv.only _ sender' he⟩
      · exact .inr ⟨raise, sender, ho, rfl⟩
    · rintro (⟨rfl, rfl, hn⟩ | ⟨raise, sender, ho, rfl⟩)
      · refine ⟨_, ⟨id, (s.channels id).cloneSender.1⟩,
          (MediatorState.owes_insert rfl).2 (.inl ⟨rfl, rfl, ?_⟩), rfl⟩
        exact (hclones id _).2 ⟨hn ▸ hv.entry, rfl⟩
      · have hr : r ≠ s.nextRaise := Nat.ne_of_lt (hw.running r raise ho.1)
        exact ⟨raise, sender, (MediatorState.owes_insert rfl).2 (.inr ⟨hr, ho⟩), rfl⟩
  refine ⟨hv.known, hv.entry, hv.only, hchannel.1.trans hv.isOpen, ?delivered, ?nodup, ?due,
    ?pending, ?served, ?accepted⟩
  case delivered =>
    simpa [sent_concat, received_concat, MediatorOp.sends, MediatorOp.receives, hchannel.2] using
      hv.delivered
  case nodup =>
    simpa [sent_concat, MediatorOp.sends] using hv.nodup
  case due =>
    intro r event' hmem
    have hmem : (r, event') ∈ sent post id := by
      simpa [sent_concat, MediatorOp.sends] using hmem
    obtain ⟨hr, hn, hlt, hnot⟩ := hv.due r event' hmem
    refine ⟨List.mem_append_left _ hr, hn, Nat.lt_succ_of_lt hlt, fun event'' hp => ?_⟩
    rcases (hpending r event'').1 hp with ⟨rfl, -⟩ | hp
    · exact Nat.lt_irrefl _ hlt
    · exact hnot event'' hp
  case pending =>
    intro r event' hp
    rcases (hpending r event').1 hp with ⟨rfl, rfl, hn⟩ | hp
    · exact ⟨List.mem_concat_self, hn⟩
    · exact (hv.pending r event' hp).imp_left (List.mem_append_left _)
  case served =>
    intro r event' hmem hn
    rw [hpending]
    rcases List.mem_append.1 hmem with hold | hnew
    · rcases hv.served r event' hold hn with hsent | hp
      · exact .inl (by rw [sent_concat]; exact List.mem_append_left _ hsent)
      · exact .inr (.inr hp)
    · cases List.mem_singleton.1 hnew
      exact .inr (.inl ⟨rfl, rfl, hn⟩)
  case accepted =>
    intro r event' e hmem
    exact hv.accepted r event' e (by simpa using hmem)

variable (id) in
/-- What the calls of `raise` still have to do after one of them has used the sender of `id₀`. -/
theorem pending_send (hw : s.Wf) {r₀ : ℕ} {raise₀ : Raise} {id₀ : XStackId} {sender₀ : Sender}
    {before after : List (XStackId × Sender)} (hget : s.raises.get r₀ = some raise₀)
    (hsenders : raise₀.senders = before ++ (id₀, sender₀) :: after) (r : ℕ) (event : Event) :
    (s.send r₀ raise₀ id₀ sender₀ (before ++ after)).Pending id r event ↔
      s.Pending id r event ∧ ¬ (id = id₀ ∧ r = r₀) := by
  have hraises := s.send_raises r₀ raise₀ id₀ sender₀ (before ++ after)
  constructor
  · rintro ⟨raise, sender, ho, rfl⟩
    obtain ⟨hother, raise', ho', he⟩ := hw.owes_of_send hget hsenders ho
    exact ⟨⟨raise', sender, ho', he⟩, hother⟩
  · rintro ⟨⟨raise, sender, ho, rfl⟩, hnot⟩
    by_cases hr : r = r₀
    · subst hr
      cases hget.symm.trans ho.1
      refine ⟨_, sender, (MediatorState.owes_insert hraises).2 (.inl ⟨rfl, rfl, ?_⟩),
        Raise.sent_event ..⟩
      have hmem := ho.2
      rw [hsenders] at hmem
      rw [Raise.sent_senders]
      rcases List.mem_append.1 hmem with hmem | hmem
      · exact List.mem_append_left _ hmem
      · rcases List.mem_cons.1 hmem with he | hmem
        · cases he
          exact absurd ⟨rfl, rfl⟩ hnot
        · exact List.mem_append_right _ hmem
    · exact ⟨raise, sender, (MediatorState.owes_insert hraises).2 (.inr ⟨hr, ho⟩), rfl⟩

/-- **The send to the listener succeeds**, and the event is the last one in its channel. -/
theorem send (hv : Served s id name post) (hw : s.Wf) {r : ℕ} {event : Event}
    {answer : Except TrySendError Unit} (hst : MediatorStep s (.send r id event answer) s') :
    Served s' id name (post ++ [.send r id event answer]) := by
  cases hst with | send r raise before id sender after hget hsenders =>
  have howed : s.Owes r raise id sender := ⟨hget, by simp [hsenders]⟩
  obtain ⟨hk, hchan, hlt, hnot⟩ := hw.owes r raise id sender howed
  -- the sender of the listener is not parked, so there is room for one more event
  have hsend := Channel.trySend_eq (x := raise.event) hnot hv.isOpen
  have hanswer : s.answer raise sender = .ok () := by
    rw [MediatorState.answer, hchan, hsend]
  have hchannel := s.send_channels r raise id id sender (before ++ after)
  rw [hchan, if_pos rfl, hsend] at hchannel
  have hdue := hv.pending r raise.event ⟨raise, sender, howed, rfl⟩
  have hpending := pending_send id hw hget hsenders
  -- a call that has sent its event is not pending
  have hunsent : r ∉ (sent post id).map Prod.fst := by
    intro hmem
    obtain ⟨⟨r', event'⟩, hx, rfl⟩ := List.mem_map.1 hmem
    exact (hv.due _ event' hx).2.2.2 raise.event ⟨raise, sender, howed, rfl⟩
  rw [hanswer]
  have hsent : sent (post ++ [.send r id raise.event (.ok ())]) id =
      sent post id ++ [(r, raise.event)] := by
    rw [sent_concat, MediatorOp.sends, if_pos rfl]
    rfl
  refine ⟨hv.known, hv.entry, hv.only, ?isOpen, ?delivered, ?nodup, ?due, ?pending, ?served,
    ?accepted⟩
  case isOpen =>
    rw [hchannel]
    exact hv.isOpen
  case delivered =>
    rw [hsent, received_concat, List.map_append, hv.delivered, hchannel]
    simp [MediatorOp.receives]
  case nodup =>
    rw [hsent, List.map_append]
    exact hv.nodup.append (List.nodup_singleton r) (List.disjoint_singleton.2 hunsent)
  case due =>
    intro r' event' hmem
    rw [hsent] at hmem
    rcases List.mem_append.1 hmem with hold | hnew
    · obtain ⟨hr, hn, hlt', hnot'⟩ := hv.due r' event' hold
      exact ⟨List.mem_append_left _ hr, hn, hlt',
        fun event'' hp => hnot' event'' ((hpending r' event'').1 hp).1⟩
    · cases List.mem_singleton.1 hnew
      exact ⟨List.mem_append_left _ hdue.1, hdue.2, hw.running r raise hget,
        fun event'' hp => ((hpending r event'').1 hp).2 ⟨rfl, rfl⟩⟩
  case pending =>
    intro r' event' hp
    exact (hv.pending r' event' ((hpending r' event').1 hp).1).imp_left (List.mem_append_left _)
  case served =>
    intro r' event' hmem hn
    rw [hsent, hpending]
    have hold : .raise r' event' ∈ post := by simpa using hmem
    rcases hv.served r' event' hold hn with hsent' | hp
    · exact .inl (List.mem_append_left _ hsent')
    · by_cases hr : r' = r
      · subst hr
        obtain ⟨raise', sender', ho, rfl⟩ := hp
        cases hget.symm.trans ho.1
        exact .inl List.mem_concat_self
      · exact .inr ⟨hp, fun h => hr h.2⟩
  case accepted =>
    intro r' event' e hmem
    rcases List.mem_append.1 hmem with hold | hnew
    · exact hv.accepted r' event' e hold
    · cases List.mem_singleton.1 hnew

theorem receive (hv : Served s id name post) {event : Event} {channel : Channel Event}
    (hn : (s.channels id).next = some (event, channel)) :
    Served (s.setChannel id channel) id name (post ++ [.receive id event]) := by
  obtain ⟨queue, hqueue, rfl⟩ := Channel.next_eq_some hn
  have hchannel := s.setChannel_channels id id
    { s.channels id with queue := queue, parked := (s.channels id).parked.tail }
  rw [if_pos rfl] at hchannel
  have hsent : sent (post ++ [.receive id event]) id = sent post id := by
    rw [sent_concat]
    exact List.append_nil _
  have hreceived : received (post ++ [.receive id event]) id = received post id ++ [event] := by
    rw [received_concat, MediatorOp.receives, if_pos rfl]
    rfl
  refine ⟨hv.known, hv.entry, hv.only, ?isOpen, ?delivered, ?nodup, ?due, ?pending, ?served,
    ?accepted⟩
  case isOpen =>
    rw [hchannel]
    exact hv.isOpen
  case delivered =>
    rw [hsent, hreceived, hchannel, hv.delivered, hqueue, List.append_assoc]
    rfl
  case nodup =>
    rw [hsent]
    exact hv.nodup
  case due =>
    intro r event' hmem
    exact (hv.due r event' (hsent ▸ hmem)).imp_left (List.mem_append_left _)
  case pending =>
    intro r event' hp
    exact (hv.pending r event' hp).imp_left (List.mem_append_left _)
  case served =>
    intro r event' hmem hname
    rw [hsent]
    exact hv.served r event' (by simpa using hmem) hname
  case accepted =>
    intro r event' e hmem
    exact hv.accepted r event' e (by simpa using hmem)

end Served

/-- The operation neither closes the listener nor drops its receiver. -/
def Keeps (id : XStackId) (op : MediatorOp) : Prop := op ≠ .close id ∧ op ≠ .dropReceiver id

theorem MediatorStep.served {id : XStackId} {name : String} {post : List MediatorOp} (hw : s.Wf)
    (hv : Served s id name post) (hkeeps : Keeps id op) (hst : MediatorStep s op s') :
    Served s' id name (post ++ [op]) := by
  cases hst with
  | newId =>
    refine hv.quiet ⟨rfl, by simp, by simp⟩ (fun hk => ⟨Nat.lt_succ_of_lt hk.1, ?_⟩)
      (fun _ => rfl) rfl rfl (fun _ _ => .rfl) rfl
    rw [List.mem_cons, not_or]
    exact ⟨fun he => Nat.lt_irrefl _ (he ▸ hk.1), hk.2⟩
  | bind id' eventName buffer hid =>
    have hne : id ≠ id' := fun he => hv.known.2 (he ▸ hid)
    refine hv.quiet ⟨rfl, by simp, by simp⟩
      (fun hk => ⟨hk.1, fun hmem => hk.2 (List.mem_of_mem_erase hmem)⟩) (fun name' => ?_) ?_ ?_
      (fun _ _ => .rfl) rfl
    · rw [MediatorState.bind_raw, SyncEventMediator.entry_bind, if_neg fun h => hne h.2]
    · rw [MediatorState.bind_channels, if_neg hne]
    · rw [MediatorState.bind_channels, if_neg hne]
  | raise event => exact hv.raise hw event (.raise s event)
  | send r raise before id' sender after hget hsenders =>
    by_cases hi : id' = id
    · subst hi
      exact hv.send hw (.send r raise before id' sender after hget hsenders)
    · -- the sender belongs to the channel of another listener
      have hchan := (hw.owes r raise id' sender ⟨hget, by simp [hsenders]⟩).2.1
      have hsame : (s.send r raise id' sender (before ++ after)).channels id = s.channels id := by
        rw [MediatorState.send_channels, if_neg fun h => hi (hchan.symm.trans h.symm)]
      refine hv.quiet ⟨rfl, by simp, by simp [hi]⟩ (fun hk => hk) (fun _ => rfl) (by rw [hsame])
        (by rw [hsame]) (fun r' event' => ?_) rfl
      rw [Served.pending_send id hw hget hsenders, and_iff_left fun h => hi h.1.symm]
  | raised r raise hget hsenders =>
    -- only closed listeners are removed
    have hopen : id ∉ raise.disconnected := by
      intro hmem
      have hclosed := (hw.gone r raise hget id hmem).2
      rw [hv.isOpen] at hclosed
      cases hclosed
    refine hv.quiet ⟨rfl, by simp, by simp⟩ (fun hk => hk) (fun name' => ?_) rfl rfl
      (fun r' event' => ?_) rfl
    · rw [MediatorState.raised_raw, SyncEventMediator.entry_removeAll, if_neg fun h => hopen h.2]
    · constructor
      · rintro ⟨raise', sender, ho, he⟩
        exact ⟨raise', sender, ⟨(HashMap.get_of_get_remove ho.1).2, ho.2⟩, he⟩
      · rintro ⟨raise', sender, ho, he⟩
        have hr : r' ≠ r := by
          rintro rfl
          cases hget.symm.trans ho.1
          have hmem := ho.2
          rw [hsenders] at hmem
          cases hmem
        exact ⟨raise', sender, ⟨(HashMap.get_remove_ne hr).trans ho.1, ho.2⟩, he⟩
  | close id' values hvalues =>
    have hne : id ≠ id' := fun he => hkeeps.1 (by rw [he])
    exact hv.quiet ⟨rfl, by simp, by simp⟩ (fun hk => hk)
      (fun name' => SyncEventMediator.entry_close_of_ne hvalues hne) rfl rfl (fun _ _ => .rfl) rfl
  | receive id' event channel hn =>
    by_cases hi : id' = id
    · subst hi
      exact hv.receive hn
    · have hsame := s.setChannel_channels id' id channel
      rw [if_neg (Ne.symm hi)] at hsame
      exact hv.quiet ⟨by simp [MediatorOp.receives, hi], by simp, by simp⟩ (fun hk => hk)
        (fun _ => rfl) (by rw [hsame]) (by rw [hsame]) (fun _ _ => .rfl) rfl
  | dropReceiver id' =>
    have hne : id ≠ id' := fun he => hkeeps.2 (by rw [he])
    have hsame := s.setChannel_channels id' id (s.channels id').dropReceiver
    rw [if_neg hne] at hsame
    exact hv.quiet ⟨rfl, by simp, by simp⟩ (fun hk => hk) (fun _ => rfl) (by rw [hsame])
      (by rw [hsame]) (fun _ _ => .rfl) rfl

/-! ### The calls of `raise` -/

variable {h : List MediatorOp}

/-- The calls that have sent something have been made, and those that have returned are not running
any more. -/
theorem raise_history (hr : mediatorLts.Run h s) :
    (∀ r id event answer, .send r id event answer ∈ h → r < s.nextRaise) ∧
      ∀ r, .raised r ∈ h → r < s.nextRaise ∧ s.raises.get r = none := by
  refine hr.invariant (I := fun h s => (∀ r id event answer, .send r id event answer ∈ h →
    r < s.nextRaise) ∧ ∀ r, .raised r ∈ h → r < s.nextRaise ∧ s.raises.get r = none)
    (fun s _ => by simp) ?_
  rintro h s op s' hr ⟨hsent, hraised⟩ hst
  have hw := mediatorLts_wf ⟨h, hr⟩
  cases hst with
  | newId | bind | close | receive | dropReceiver => simpa using ⟨hsent, hraised⟩
  | raise event =>
    refine ⟨fun r id event' answer hmem => ?_, fun r hmem => ?_⟩
    · exact Nat.lt_succ_of_lt (hsent r id event' answer (by simpa using hmem))
    · obtain ⟨hlt, hnone⟩ := hraised r (by simpa using hmem)
      refine ⟨Nat.lt_succ_of_lt hlt, ?_⟩
      rw [MediatorState.raise_raises, HashMap.get_insert_ne (Nat.ne_of_lt hlt)]
      exact hnone
  | send r raise before id sender after hget hsenders =>
    refine ⟨fun r' id' event' answer hmem => ?_, fun r' hmem => ?_⟩
    · rcases List.mem_append.1 hmem with hold | hnew
      · exact hsent r' id' event' answer hold
      · cases List.mem_singleton.1 hnew
        exact hw.running r raise hget
    · obtain ⟨hlt, hnone⟩ := hraised r' (by simpa using hmem)
      have hr' : r' ≠ r := by
        rintro rfl
        cases hnone.symm.trans hget
      refine ⟨hlt, ?_⟩
      rw [MediatorState.send_raises, HashMap.get_insert_ne hr']
      exact hnone
  | raised r raise hget hsenders =>
    refine ⟨fun r' id event answer hmem => hsent r' id event answer (by simpa using hmem),
      fun r' hmem => ?_⟩
    rw [MediatorState.raised_raises, HashMap.get_remove]
    rcases List.mem_append.1 hmem with hold | hnew
    · exact (hraised r' hold).imp_right fun hnone => by rw [hnone, ite_self]
    · cases List.mem_singleton.1 hnew
      exact ⟨hw.running r raise hget, if_pos rfl⟩

theorem MediatorStep.running {r : ℕ} {id : XStackId} {event : Event}
    {answer : Except TrySendError Unit} (hst : MediatorStep s (.send r id event answer) s') :
    ∃ raise, s.raises.get r = some raise := by
  cases hst with | send r raise before id sender after hget =>
  exact ⟨raise, hget⟩

/-- **A call of `raise` never waits for a listener**: it returns after its own sends. -/
theorem raise_completes {r : ℕ} {raise : Raise} (hr : mediatorLts.Run h s)
    (hget : s.raises.get r = some raise) :
    ∃ ops s', mediatorLts.Run (h ++ ops ++ [.raised r]) s' ∧
      ∀ op ∈ ops, ∃ id answer, op = .send r id raise.event answer := by
  rcases raise with ⟨event, senders, disconnected⟩
  induction senders generalizing h s disconnected with
  | nil =>
    have hst := MediatorStep.raised r _ hget rfl
    exact ⟨[], _, by simpa using hr.snoc hst, by simp⟩
  | cons entry senders ih =>
    obtain ⟨id, sender⟩ := entry
    have hst := MediatorStep.send r _ [] id sender senders hget rfl
    have hget' := s.send_raises r ⟨event, (id, sender) :: senders, disconnected⟩ id sender senders
    have hrest : ∃ disconnected', (Raise.sent ⟨event, (id, sender) :: senders, disconnected⟩ id
        senders (s.answer ⟨event, (id, sender) :: senders, disconnected⟩ sender)) =
        ⟨event, senders, disconnected'⟩ := by
      unfold Raise.sent
      split <;> exact ⟨_, rfl⟩
    obtain ⟨disconnected', hrest⟩ := hrest
    rw [hrest] at hget'
    obtain ⟨ops, s', hr', hops⟩ := ih (hr.snoc hst) disconnected'
      (by rw [List.nil_append, hget', HashMap.get_insert_self])
    refine ⟨_ :: ops, s', by simpa using hr', fun op hop => ?_⟩
    rcases List.mem_cons.1 hop with rfl | hop
    · exact ⟨_, _, rfl⟩
    · exact hops op hop

/-- A call that has returned before another one is made has sent its event before. -/
theorem sent_before {pre a b : List MediatorOp} {id : XStackId} {r₁ r₂ : ℕ} {event₁ event₂ : Event}
    (hr : mediatorLts.Run (pre ++ (a ++ .raise r₂ event₂ :: b)) s) (hraised : .raised r₁ ∈ a)
    (h₁ : (r₁, event₁) ∈ sent (a ++ .raise r₂ event₂ :: b) id)
    (h₂ : (r₂, event₂) ∈ sent (a ++ .raise r₂ event₂ :: b) id) :
    [(r₁, event₁), (r₂, event₂)].Sublist (sent (a ++ .raise r₂ event₂ :: b) id) := by
  have hsend : ∀ {ops : List MediatorOp} {r event}, (r, event) ∈ sent ops id →
      .send r id event (.ok ()) ∈ ops := by
    intro ops r event hmem
    obtain ⟨op, hop, he⟩ := List.mem_filterMap.1 hmem
    unfold MediatorOp.sends at he
    split at he
    · split_ifs at he with hi
      cases he
      exact hi ▸ hop
    · cases he
  rw [sent, List.filterMap_append, ← sent, ← sent] at h₁ h₂ ⊢
  have hfirst : (r₁, event₁) ∈ sent a id := by
    rcases List.mem_append.1 h₁ with hmem | hmem
    · exact hmem
    · -- after its return the call is not running, and cannot send
      obtain ⟨c, d, hcd⟩ := List.append_of_mem (hsend hmem)
      rw [hcd, ← List.append_assoc, ← List.append_assoc] at hr
      obtain ⟨s₁, s₂, hpre, hst⟩ := hr.split
      have hnone := ((raise_history hpre).2 r₁ (by simp [hraised])).2
      obtain ⟨raise, hget⟩ := hst.running
      cases hnone.symm.trans hget
  have hsecond : (r₂, event₂) ∈ sent (.raise r₂ event₂ :: b) id := by
    rcases List.mem_append.1 h₂ with hmem | hmem
    · -- before it is made the call has sent nothing
      rw [← List.append_assoc] at hr
      obtain ⟨s₁, s₂, hpre, hst⟩ := hr.split
      have hlt := (raise_history hpre).1 r₂ id event₂ _ (List.mem_append_right _ (hsend hmem))
      cases hst
      exact absurd hlt (Nat.lt_irrefl _)
    · exact hmem
  exact (List.singleton_sublist.2 hfirst).append (List.singleton_sublist.2 hsecond)

/-- **No event is lost.**  What has happened at a listener since its `bind`, if it has not been
closed and has kept its receiver: the events sent to it have been received, in the order in which
they were sent, or wait in its channel; every call of `raise` for its event name that was made since
has sent its event once, or is still going to, and no other call has; no send has failed; calls that
were made one after another have sent their events in this order; and every call that is running can
return by its own steps. -/
theorem events_not_lost (pre post : List MediatorOp) (id : XStackId) (name : String) (buffer : ℕ+)
    (s : MediatorState) (hr : mediatorLts.Run (pre ++ .bind id name buffer :: post) s)
    (hclose : .close id ∉ post) (hreceiver : .dropReceiver id ∉ post) :
    (sent post id).map Prod.snd = received post id ++ (s.channels id).queue ∧
    ((sent post id).map Prod.fst).Nodup ∧
    (∀ r event, (r, event) ∈ sent post id → .raise r event ∈ post ∧ event.toName = name) ∧
    (∀ r event, .raise r event ∈ post → event.toName = name →
      (r, event) ∈ sent post id ∨ s.Pending id r event ∧ .raised r ∉ post) ∧
    (∀ r event e, .send r id event (.error e) ∉ post) ∧
    (∀ a b r₁ event₁ r₂ event₂, post = a ++ .raise r₂ event₂ :: b → .raised r₁ ∈ a →
      (r₁, event₁) ∈ sent post id → (r₂, event₂) ∈ sent post id →
      [(r₁, event₁), (r₂, event₂)].Sublist (sent post id)) ∧
    ∀ r raise, s.raises.get r = some raise → ∃ ops s',
      mediatorLts.Run (pre ++ .bind id name buffer :: post ++ ops ++ [.raised r]) s' ∧
        ∀ op ∈ ops, ∃ id' answer, op = .send r id' raise.event answer := by
  rw [List.append_cons] at hr
  obtain ⟨s₂, hbound, hpost⟩ := hr.suffix
  obtain ⟨s₁, hpre, hbind⟩ := Lts.run_concat_iff.1 hbound
  have hw₁ := mediatorLts_wf ⟨pre, hpre⟩
  have hkeeps : ∀ op ∈ post, Keeps id op := fun op hop =>
    ⟨fun he => hclose (he ▸ hop), fun he => hreceiver (he ▸ hop)⟩
  -- the invariant starts with the `bind`
  have hv : s.Wf ∧ Served s id name post := by
    refine (hpost.runWhere hkeeps).invariant (I := fun post s => s.Wf ∧ Served s id name post) ?_ ?_
    · rintro s rfl
      exact ⟨hbind.wf hw₁, .start hw₁ hbind⟩
    · rintro post s op s' - ⟨hw, hv⟩ hkeeps hst
      exact ⟨hst.wf hw, hst.served hw hv hkeeps⟩
  obtain ⟨hw, hv⟩ := hv
  refine ⟨hv.delivered, hv.nodup, fun r event hmem => ?_, fun r event hmem hn => ?_, hv.accepted,
    fun a b r₁ event₁ r₂ event₂ hab hraised h₁ h₂ => ?_, fun r raise hget => ?_⟩
  · obtain ⟨hraise, hn, -⟩ := hv.due r event hmem
    exact ⟨hraise, hn⟩
  · refine (hv.served r event hmem hn).imp_right fun hp => ⟨hp, fun hraised => ?_⟩
    obtain ⟨raise, sender, ho, -⟩ := hp
    have hnone := ((raise_history hr).2 r (List.mem_append_right _ hraised)).2
    cases hnone.symm.trans ho.1
  · subst hab
    exact sent_before hr hraised h₁ h₂
  · rw [List.append_cons pre]
    exact raise_completes hr hget

section Sample

/-- The switch has found out that it is behind a NAT. -/
def natEvent : Event := .network .nat

/-- A listener with a buffer for one event is sent two, and has not received any. -/
theorem full_buffer_keeps_events : ∃ post s,
    mediatorLts.Run ([.newId ⟨0⟩] ++ .bind ⟨0⟩ "/xstack/network" 1 :: post) s ∧
    sent post ⟨0⟩ = [(0, natEvent), (1, natEvent)] ∧ received post ⟨0⟩ = [] ∧
    (sent post ⟨0⟩).map Prod.snd = received post ⟨0⟩ ++ (s.channels ⟨0⟩).queue := by
  have start : mediatorLts.Run [] ⟨∅, fun _ => .new 0, 0, [], ∅, 0⟩ := .start ⟨_, rfl⟩
  have drawn := start.snoc (.newId _)
  have bound := drawn.snoc (.bind ⟨0⟩ "/xstack/network" 1 List.mem_cons_self)
  have raising := bound.snoc (.raise _ natEvent)
  have sent₁ := raising.snoc (.send 0 _ [] ⟨0⟩ _ [] rfl rfl)
  have again := sent₁.snoc (.raise _ natEvent)
  have sent₂ := again.snoc (.send 1 _ [] ⟨0⟩ _ [] rfl rfl)
  have hdelivered := (events_not_lost [.newId ⟨0⟩]
    [.raise 0 natEvent, .send 0 ⟨0⟩ natEvent (.ok ()), .raise 1 natEvent,
      .send 1 ⟨0⟩ natEvent (.ok ())] ⟨0⟩ "/xstack/network" 1 _ sent₂ (by simp) (by simp)).1
  exact ⟨_, _, sent₂, rfl, rfl, hdelivered⟩

end Sample

end XStack
