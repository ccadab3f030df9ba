import Mathlib.Data.List.Basic

/-!
# Bounded channels

`Channel α` stands for `futures::channel::mpsc::channel`, as it is documented: a queue with several
senders and one receiver.  It is bounded in an unusual way: every sender has a slot of its own
besides the buffer.  A send through a sender that is not parked succeeds however long the queue is;
if the queue is then longer than the buffer, that sender is parked, and it stays so until the
receiver has taken a message and it is its turn.  A clone of a sender starts out with an empty slot.

## Main results

* `Channel.trySend_eq` : the send of a sender that is not parked.
* `Channel.Wf` : the parked senders are senders of the channel; kept by every operation, so that a
  clone is not parked (`Channel.Wf.cloneSender_unparked`).
-/

namespace XStack

/-- What a channel and its senders share.  A sender is known by its number. -/
structure Channel (α : Type*) where
  /-- The size of the buffer. -/
  buffer : ℕ
  /-- The messages that have not been received, oldest first. -/
  queue : List α
  /-- The receiver has not been dropped. -/
  isOpen : Bool
  /-- The number of senders made so far. -/
  senders : ℕ
  /-- The parked senders, in the order in which they will be woken. -/
  parked : List ℕ

/-- `TrySendError`, without the message it gives back. -/
inductive TrySendError where
  | full
  | disconnected
  deriving DecidableEq, Repr

namespace Channel

variable {α : Type*}

/-- `channel`; the sender it returns has the number 0. -/
def new (buffer : ℕ) : Channel α := ⟨buffer, [], true, 1, []⟩

/-- `Sender::clone`: the number of the clone. -/
def cloneSender (c : Channel α) : ℕ × Channel α := (c.senders, { c with senders := c.senders + 1 })

/-- `Sender::try_send`. -/
def trySend (c : Channel α) (sender : ℕ) (x : α) : Except TrySendError Unit × Channel α :=
  if sender ∈ c.parked then (.error .full, c)
  else if c.isOpen then
    (.ok (), { c with
      queue := c.queue ++ [x]
      parked := if c.buffer < c.queue.length + 1 then c.parked ++ [sender] else c.parked })
  else (.error .disconnected, c)

/-- `Receiver::poll_next`, when there is a message: a parked sender is woken. -/
def next (c : Channel α) : Option (α × Channel α) :=
  match c.queue with
  | [] => none
  | x :: queue => some (x, { c with queue := queue, parked := c.parked.tail })

/-- `Drop` of the receiver: the channel is closed and emptied, and all senders are woken. -/
def dropReceiver (c : Channel α) : Channel α :=
  { c with isOpen := false, queue := [], parked := [] }

variable {c c' : Channel α} {sender : ℕ} {x : α}

/-- **A sender that is not parked can send**, as long as the receiver is there. -/
theorem trySend_eq (h : sender ∉ c.parked) (hopen : c.isOpen = true) :
    c.trySend sender x = (.ok (), { c with
      queue := c.queue ++ [x]
      parked := if c.buffer < c.queue.length + 1 then c.parked ++ [sender] else c.parked }) := by
  rw [trySend, if_neg h, if_pos hopen]

theorem isOpen_trySend (c : Channel α) (sender : ℕ) (x : α) :
    (c.trySend sender x).2.isOpen = c.isOpen := by
  unfold trySend
  split_ifs <;> rfl

theorem senders_trySend (c : Channel α) (sender : ℕ) (x : α) :
    (c.trySend sender x).2.senders = c.senders := by
  unfold trySend
  split_ifs <;> rfl

theorem parked_trySend {sender' : ℕ} (h : sender' ∈ (c.trySend sender x).2.parked) :
    sender' ∈ c.parked ∨ sender' = sender := by
  unfold trySend at h
  split_ifs at h
  · exact .inl h
  · rcases List.mem_append.1 h with hold | hnew
    · exact .inl hold
    · exact .inr (List.mem_singleton.1 hnew)
  · exact .inl h
  · exact .inl h

theorem isOpen_of_disconnected (h : (c.trySend sender x).1 = .error .disconnected) :
    c.isOpen = false := by
  unfold trySend at h
  split_ifs at h with hparked hopen <;> simp_all

theorem next_eq_some (h : c.next = some (x, c')) :
    ∃ queue, c.queue = x :: queue ∧ c' = { c with queue := queue, parked := c.parked.tail } := by
  unfold next at h
  split at h
  · cases h
  · next y queue hqueue =>
    cases h
    exact ⟨queue, hqueue, rfl⟩

/-- The parked senders are senders of the channel. -/
def Wf (c : Channel α) : Prop := ∀ sender ∈ c.parked, sender < c.senders

theorem Wf.new (buffer : ℕ) : (Channel.new buffer : Channel α).Wf := by
  simp [Wf, Channel.new]

theorem Wf.cloneSender (h : c.Wf) : c.cloneSender.2.Wf :=
  fun sender hmem => Nat.lt_succ_of_lt (h sender hmem)

theorem Wf.cloneSender_unparked (h : c.Wf) : c.cloneSender.1 ∉ c.parked :=
  fun hmem => Nat.lt_irrefl _ (h _ hmem)

theorem Wf.trySend (h : c.Wf) (hsender : sender < c.senders) : (c.trySend sender x).2.Wf := by
  intro sender' hmem
  rw [senders_trySend]
  rcases parked_trySend hmem with hold | rfl
  · exact h sender' hold
  · exact hsender

theorem Wf.next (h : c.Wf) (hn : c.next = some (x, c')) : c'.Wf := by
  obtain ⟨queue, -, rfl⟩ := next_eq_some hn
  exact fun sender hmem => h sender (List.mem_of_mem_tail hmem)

theorem Wf.dropReceiver (c : Channel α) : c.dropReceiver.Wf := by
  simp [Wf, Channel.dropReceiver]

end Channel

end XStack
