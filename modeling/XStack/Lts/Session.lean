import XStack.Data.ByteStream
import XStack.Lts.Refinement

/-!
# Sessions

Two programs talk to each other over a stream.  What has been written at one end arrives at the
other end in order, in chunks of any size and after any time, so that the two ends go on in any
order.  A program is given by what it has written once it has received some chunks and waits for
more.

If one of them keeps to a list of turns, and the other one to the same list from the other side,
then the order and the chunks do not matter: nothing is received that is not in the list, the
session cannot get stuck before all of it has been sent, and it cannot go on forever.

## Main definitions

* `Turn`, `Turn.sentAfter` : the turns, and what has been sent once something has been received.
* `Wires`, `sessionLts` : what has arrived at the two ends, and how it arrives.
* `Turn.Keeps` : a program keeps to its turns.

## Main results

* `Turn.fixpoint` : where neither end has anything left to send, all has been sent.
* `Turn.sent_before` : whoever receives the last word has been heard before.
* `sessionLts_ordered`, `sessionLts_length_le`, `sessionLts_leads`.
-/

namespace XStack

/-- What a program does next on its stream. -/
inductive Turn where
  | send (bytes : List UInt8)
  | recv (bytes : List UInt8)

namespace Turn

/-- The same turn from the other side. -/
def dual : Turn → Turn
  | send bytes => recv bytes
  | recv bytes => send bytes

/-- All that is sent. -/
def sent : List Turn → List UInt8
  | [] => []
  | send bytes :: ts => bytes ++ sent ts
  | recv _ :: ts => sent ts

/-- All that is received. -/
def received : List Turn → List UInt8
  | [] => []
  | send _ :: ts => received ts
  | recv bytes :: ts => bytes ++ received ts

/-- What has been sent by an end that has received `i`. -/
def sentAfter : List Turn → List UInt8 → List UInt8
  | [], _ => []
  | send bytes :: ts, i => bytes ++ sentAfter ts i
  | recv bytes :: ts, i => if bytes <+: i then sentAfter ts (i.drop bytes.length) else []

variable {ts us : List Turn} {i j l r : List UInt8}

@[simp] theorem sent_dual (ts : List Turn) : sent (ts.map dual) = received ts := by
  induction ts with
  | nil => rfl
  | cons t ts ih => cases t <;> simp [dual, sent, received, ih]

@[simp] theorem received_dual (ts : List Turn) : received (ts.map dual) = sent ts := by
  induction ts with
  | nil => rfl
  | cons t ts ih => cases t <;> simp [dual, sent, received, ih]

@[simp] theorem sent_append (ts us : List Turn) : sent (ts ++ us) = sent ts ++ sent us := by
  induction ts with
  | nil => rfl
  | cons t ts ih => cases t <;> simp [sent, ih]

@[simp] theorem received_append (ts us : List Turn) :
    received (ts ++ us) = received ts ++ received us := by
  induction ts with
  | nil => rfl
  | cons t ts ih => cases t <;> simp [received, ih]

theorem sentAfter_recv (bytes : List UInt8) (ts : List Turn) (i : List UInt8) :
    sentAfter (recv bytes :: ts) (bytes ++ i) = sentAfter ts i := by
  rw [sentAfter, if_pos (List.prefix_append bytes i), List.drop_left]

theorem sentAfter_prefix (ts : List Turn) (i : List UInt8) : sentAfter ts i <+: sent ts := by
  induction ts generalizing i with
  | nil => exact List.prefix_rfl
  | cons t ts ih =>
    cases t with
    | send bytes => exact (List.prefix_append_right_inj bytes).2 (ih i)
    | recv bytes =>
      rw [sentAfter]
      split_ifs
      · exact ih _
      · exact List.nil_prefix

theorem sentAfter_append (ts us : List Turn) (i : List UInt8) :
    sentAfter (ts ++ us) (received ts ++ i) = sent ts ++ sentAfter us i := by
  induction ts with
  | nil => rfl
  | cons t ts ih =>
    cases t with
    | send bytes => simp [sentAfter, sent, received, ih]
    | recv bytes =>
      rw [received, List.append_assoc, List.cons_append, sentAfter_recv, ih, sent]

theorem sentAfter_received (ts : List Turn) : sentAfter ts (received ts) = sent ts := by
  simpa [sentAfter] using sentAfter_append ts [] []

/-- As long as the first turns are not over, nothing of what follows is sent. -/
theorem sentAfter_short (hi : i <+: received ts) (hne : i ≠ received ts) :
    sentAfter (ts ++ us) i = sentAfter ts i := by
  induction ts generalizing i with
  | nil => exact absurd (List.prefix_nil.1 hi) hne
  | cons t ts ih =>
    cases t with
    | send bytes => rw [List.cons_append, sentAfter, sentAfter, ih hi hne]
    | recv bytes =>
      rw [List.cons_append, sentAfter, sentAfter]
      split_ifs with hbytes
      · obtain ⟨i, rfl⟩ := hbytes
        rw [received, List.prefix_append_right_inj] at hi
        rw [List.drop_left]
        exact ih hi fun heq => hne (by rw [received, heq])
      · rfl

theorem sentAfter_mono (ts : List Turn) (hij : i <+: j) : sentAfter ts i <+: sentAfter ts j := by
  induction ts generalizing i j with
  | nil => exact List.prefix_rfl
  | cons t ts ih =>
    cases t with
    | send bytes => exact (List.prefix_append_right_inj bytes).2 (ih hij)
    | recv bytes =>
      rw [sentAfter, sentAfter]
      split_ifs with hi hj
      · obtain ⟨i, rfl⟩ := hi
        obtain ⟨j, rfl⟩ := hj
        rw [List.drop_left, List.drop_left]
        exact ih ((List.prefix_append_right_inj bytes).1 hij)
      · exact absurd (hi.trans hij) hj
      · exact List.nil_prefix
      · exact List.nil_prefix

/-- **Where neither end has anything left to send, all has been sent.** -/
theorem fixpoint (hl : l = sentAfter (ts.map dual) r) (hr : r = sentAfter ts l) :
    l = received ts ∧ r = sent ts := by
  induction ts generalizing l r with
  | nil => exact ⟨hl, hr⟩
  | cons t ts ih =>
    cases t with
    | send bytes =>
      subst hr
      rw [sentAfter, List.map_cons, dual, sentAfter_recv] at hl
      obtain ⟨hreceived, hsent⟩ := ih hl rfl
      exact ⟨hreceived, by rw [sentAfter, sent, hsent]⟩
    | recv bytes =>
      subst hl
      rw [List.map_cons, dual, sentAfter, sentAfter_recv] at hr
      obtain ⟨hreceived, hsent⟩ := ih rfl hr
      exact ⟨by rw [List.map_cons, dual, sentAfter, received, hreceived], hsent⟩

/-- **Whoever receives the last word has been heard before.** -/
theorem sent_before {bytes : List UInt8} (hbytes : bytes ≠ [])
    (h : received ts ++ bytes <+: sentAfter ((ts ++ [recv bytes]).map dual) r) : sent ts <+: r := by
  induction ts generalizing r with
  | nil => exact List.nil_prefix
  | cons t ts ih =>
    cases t with
    | send b =>
      rw [List.cons_append, List.map_cons, dual, sentAfter] at h
      split_ifs at h with hb
      · obtain ⟨r, rfl⟩ := hb
        rw [List.drop_left] at h
        exact (List.prefix_append_right_inj b).2 (ih h)
      · exact absurd (List.append_eq_nil_iff.1 (List.prefix_nil.1 h)).2 hbytes
    | recv b =>
      rw [List.cons_append, List.map_cons, dual, sentAfter, received, List.append_assoc,
        List.prefix_append_right_inj] at h
      exact ih h

/-- A program keeps to its turns, as long as nothing else is received. -/
def Keeps (written : List Chunk → List UInt8) (ts : List Turn) : Prop :=
  ∀ chunks : List Chunk, chunks.flatMap Subtype.val <+: received ts →
    written chunks = sentAfter ts (chunks.flatMap Subtype.val)

end Turn

/-- What has arrived at the two ends of a stream. -/
structure Wires where
  toLeft : List Chunk
  toRight : List Chunk

namespace Wires

/-- The bytes at the left end. -/
def left (s : Wires) : List UInt8 := s.toLeft.flatMap Subtype.val

/-- The bytes at the right end. -/
def right (s : Wires) : List UInt8 := s.toRight.flatMap Subtype.val

/-- The number of bytes that have arrived. -/
def arrived (s : Wires) : ℕ := s.left.length + s.right.length

/-- All turns are over. -/
def Over (ts : List Turn) (s : Wires) : Prop :=
  s.left = Turn.received ts ∧ s.right = Turn.sent ts

/-- What arrives is what has been sent, in this order. -/
structure Ordered (ts : List Turn) (s : Wires) : Prop where
  left : s.left <+: Turn.sentAfter (ts.map Turn.dual) s.right
  right : s.right <+: Turn.sentAfter ts s.left

end Wires

/-- A chunk that arrives. -/
inductive Arrival where
  | left (c : Chunk)
  | right (c : Chunk)

/-- The session of two programs. -/
inductive SessionStep (leftWritten rightWritten : List Chunk → List UInt8) :
    Wires → Arrival → Wires → Prop
  | left {s : Wires} {c : Chunk} : s.left ++ c.1 <+: rightWritten s.toRight →
      SessionStep leftWritten rightWritten s (.left c) { s with toLeft := s.toLeft ++ [c] }
  | right {s : Wires} {c : Chunk} : s.right ++ c.1 <+: leftWritten s.toLeft →
      SessionStep leftWritten rightWritten s (.right c) { s with toRight := s.toRight ++ [c] }

/-- The session, from its beginning. -/
def sessionLts (leftWritten rightWritten : List Chunk → List UInt8) : Lts Wires Arrival where
  init s := s = ⟨[], []⟩
  step := SessionStep leftWritten rightWritten

section

variable {leftWritten rightWritten : List Chunk → List UInt8} {ts : List Turn} {s s' : Wires}
  {h : List Arrival} {e : Arrival}

namespace Wires.Ordered

theorem left_prefix (ho : s.Ordered ts) : s.left <+: Turn.received ts := by
  simpa using ho.left.trans (Turn.sentAfter_prefix _ _)

theorem right_prefix (ho : s.Ordered ts) : s.right <+: Turn.sent ts :=
  ho.right.trans (Turn.sentAfter_prefix _ _)

theorem arrived_le (ho : s.Ordered ts) :
    s.arrived ≤ (Turn.received ts).length + (Turn.sent ts).length :=
  Nat.add_le_add ho.left_prefix.length_le ho.right_prefix.length_le

/-- Who has received the last word has been heard. -/
theorem right_of_left {bytes : List UInt8} (hbytes : bytes ≠ [])
    (ho : s.Ordered (ts ++ [.recv bytes])) (hl : s.left = Turn.received (ts ++ [.recv bytes])) :
    s.right = Turn.sent (ts ++ [.recv bytes]) := by
  have hleft := ho.left
  rw [hl] at hleft
  have hsent : Turn.sent ts <+: s.right :=
    Turn.sent_before hbytes (by simpa [Turn.received] using hleft)
  have hright := ho.right_prefix
  simp only [Turn.sent_append, Turn.sent, List.append_nil] at hright ⊢
  exact hright.eq_of_length_le hsent.length_le

end Wires.Ordered

theorem SessionStep.arrived_lt (hst : SessionStep leftWritten rightWritten s e s') :
    s.arrived < s'.arrived := by
  cases hst with
  | @left c hc | @right c hc =>
    have hpos : 0 < c.1.length := List.length_pos_of_ne_nil c.2
    simp only [Wires.arrived, Wires.left, Wires.right, List.flatMap_append, List.flatMap_cons,
      List.flatMap_nil, List.append_nil, List.length_append]
    omega

variable (hleft : Turn.Keeps leftWritten ts) (hright : Turn.Keeps rightWritten (ts.map Turn.dual))

include hleft hright

theorem SessionStep.ordered (hst : SessionStep leftWritten rightWritten s e s')
    (ho : s.Ordered ts) : s'.Ordered ts := by
  cases hst with
  | @left c hc =>
    have hnew : Wires.left { s with toLeft := s.toLeft ++ [c] } = s.left ++ c.1 := by
      simp [Wires.left]
    refine ⟨?_, ho.right.trans (Turn.sentAfter_mono ts ?_)⟩
    · rw [hnew]
      rwa [hright s.toRight ((Turn.received_dual ts).symm ▸ ho.right_prefix)] at hc
    · rw [hnew]
      exact List.prefix_append _ _
  | @right c hc =>
    have hnew : Wires.right { s with toRight := s.toRight ++ [c] } = s.right ++ c.1 := by
      simp [Wires.right]
    refine ⟨ho.left.trans (Turn.sentAfter_mono _ ?_), ?_⟩
    · rw [hnew]
      exact List.prefix_append _ _
    · rw [hnew]
      rwa [hleft s.toLeft ho.left_prefix] at hc

/-- **What arrives** is what has been sent, in every run. -/
theorem sessionLts_ordered (hr : (sessionLts leftWritten rightWritten).Run h s) :
    s.Ordered ts := by
  induction hr with
  | start hi =>
    cases hi
    exact ⟨List.nil_prefix, List.nil_prefix⟩
  | snoc _ hst ih => exact hst.ordered hleft hright ih

theorem sessionLts_length_le (hr : (sessionLts leftWritten rightWritten).Run h s) :
    h.length ≤ (Turn.received ts).length + (Turn.sent ts).length := by
  have hcount : h.length ≤ s.arrived := by
    induction hr with
    | start hi => exact Nat.zero_le _
    | snoc _ hst ih =>
      rw [List.length_append, List.length_singleton]
      exact Nat.lt_of_le_of_lt ih hst.arrived_lt
  exact hcount.trans (sessionLts_ordered hleft hright hr).arrived_le

/-- **A session can always be finished.** -/
theorem sessionLts_leads (hr : (sessionLts leftWritten rightWritten).Run h s) :
    (sessionLts leftWritten rightWritten).Leads (fun _ _ => True) (Wires.Over ts) s := by
  refine Lts.Leads.of_measure (I := Wires.Ordered ts)
    (fun s => (Turn.received ts).length + (Turn.sent ts).length - s.arrived)
    (fun s ho => ?_) (sessionLts_ordered hleft hright hr)
  by_cases hover : s.Over ts
  · exact .inl hover
  refine .inr ?_
  have hstep : ∀ {e s'}, SessionStep leftWritten rightWritten s e s' →
      ∃ e s', True ∧ (sessionLts leftWritten rightWritten).step s e s' ∧ s'.Ordered ts ∧
        (Turn.received ts).length + (Turn.sent ts).length - s'.arrived <
          (Turn.received ts).length + (Turn.sent ts).length - s.arrived := by
    intro e s' hst
    have ho' := hst.ordered hleft hright ho
    have hlt := hst.arrived_lt
    have hle := ho'.arrived_le
    exact ⟨e, s', trivial, hst, ho', by omega⟩
  obtain ⟨a, ha⟩ := ho.left
  obtain ⟨b, hb⟩ := ho.right
  by_cases hanil : a = []
  · by_cases hbnil : b = []
    · subst hanil hbnil
      rw [List.append_nil] at ha hb
      exact absurd (Turn.fixpoint ha hb) hover
    · refine hstep (.right (c := ⟨b, hbnil⟩) ?_)
      rw [hleft s.toLeft ho.left_prefix]
      exact hb ▸ List.prefix_rfl
  · refine hstep (.left (c := ⟨a, hanil⟩) ?_)
    rw [hright s.toRight ((Turn.received_dual ts).symm ▸ ho.right_prefix)]
    exact ha ▸ List.prefix_rfl

end

end XStack
