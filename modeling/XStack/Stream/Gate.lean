import XStack.Ed25519
import XStack.Lts.Basic
import XStack.Stream.Basic

/-!
# The handshake gate

A listener is meant to get streams of authenticated connections only.  `dispatch` tells by
`unauth_streams` whether the handshake of a connection is still under way; a connection that has no
entry there has passed its handshake, or has failed it.  A stream whose protocol is negotiated after
the handshake has failed is therefore handed to the listener (`gate_open_after_failure`), and the
gate is shut only as long as there are no such streams (`handshake_gate`).

The handshake of a connection is described by the history of the dispatcher, as a small automaton
(`Gate`) that the dispatcher refines: `Cached` says what `unauth_streams` knows about it.

## Main definitions

* `dispatcherLts` : the dispatcher, with the calls of `handshake_success` that are running.
* `Gate`, `gate` : the handshake of a connection, after a history.
* `Gated` : what the dispatcher is meant to guarantee.
* `DispatcherState.Wf`, `DispatcherState.Guarded` : the invariants.
-/

namespace XStack

/-- The dispatcher, and the calls of `handshake_success` that are running. -/
structure DispatcherState where
  /-- The dispatcher. -/
  raw : RawMutexStreamDispatcher
  /-- For every call of `handshake_success`, the streams it has still to dispatch. -/
  redispatching : List (List Inbound)

/-- The operations of the dispatcher with their answers. -/
inductive DispatcherOp where
  | handshake (connId : String)
  /-- `handshake_success` takes the cached streams. -/
  | handshakeSuccess (connId : String)
  /-- A call of `handshake_success` dispatches its next stream. -/
  | redispatch (stream : ProtocolStream) (protocolId : String)
  | handshakeFailed (connId : String)
  | bind (id : XStackId) (protocols : List String) (answer : Except Error Unit)
  | close (id : XStackId)
  /-- A round of `accept`; the answer `none` is a wait. -/
  | accept (id : XStackId) (answer : Except Error (Option Inbound))
  | dispatch (stream : ProtocolStream) (protocolId : String)
  | drop

/-- The steps of the dispatcher. -/
inductive DispatcherStep : DispatcherState → DispatcherOp → DispatcherState → Prop
  | handshake (s : DispatcherState) (connId) :
      DispatcherStep s (.handshake connId) { s with raw := s.raw.handshake connId }
  | handshakeSuccess (s : DispatcherState) (connId) :
      DispatcherStep s (.handshakeSuccess connId)
        ⟨(s.raw.handshakeSuccess connId).2,
          (s.raw.handshakeSuccess connId).1 :: s.redispatching⟩
  | redispatch {s : DispatcherState} {raw} (stream proto before rest after) :
      s.redispatching = before ++ ((stream, proto) :: rest) :: after →
      s.raw.dispatch stream proto = .ok raw →
      DispatcherStep s (.redispatch stream proto) ⟨raw, before ++ rest :: after⟩
  | handshakeFailed (s : DispatcherState) (connId) :
      DispatcherStep s (.handshakeFailed connId) { s with raw := s.raw.handshakeFailed connId }
  | bind {s : DispatcherState} {raw} (id protocols) : s.raw.bind id protocols = .ok raw →
      DispatcherStep s (.bind id protocols (.ok ())) { s with raw := raw }
  | bindError {s : DispatcherState} {e} (id protocols) : s.raw.bind id protocols = .error e →
      DispatcherStep s (.bind id protocols (.error e)) s
  | close (s : DispatcherState) (id) :
      DispatcherStep s (.close id) { s with raw := s.raw.close id }
  | accept (s : DispatcherState) (id) :
      DispatcherStep s (.accept id (s.raw.accept id).1) { s with raw := (s.raw.accept id).2 }
  | dispatch {s : DispatcherState} {raw} (stream proto) : s.raw.dispatch stream proto = .ok raw →
      DispatcherStep s (.dispatch stream proto) { s with raw := raw }
  | drop (s : DispatcherState) : DispatcherStep s .drop { s with raw := s.raw.drop }

/-- The runs of a dispatcher. -/
def dispatcherLts : Lts DispatcherState DispatcherOp where
  init s := s = ⟨.default, []⟩
  step := DispatcherStep

/-! ### The handshake of a connection -/

/-- The handshake of a connection. -/
inductive Gate where
  /-- No handshake has been started. -/
  | unknown
  /-- The handshake is under way. -/
  | pending
  /-- The handshake has failed, and no other one has been started. -/
  | failed
  /-- A handshake has succeeded. -/
  | authenticated
  deriving DecidableEq, Repr

/-- How an operation moves the handshake of the connection `c` on. -/
def Gate.next (c : String) (g : Gate) : DispatcherOp → Gate
  | .handshake c' => if c' = c ∧ g ≠ authenticated then pending else g
  | .handshakeSuccess c' => if c' = c then authenticated else g
  | .handshakeFailed c' => if c' = c ∧ g = pending then failed else g
  | _ => g

/-- The handshake of the connection `c` after a history. -/
def gate (h : List DispatcherOp) (c : String) : Gate := h.foldl (Gate.next c) .unknown

/-- The guarantee of the dispatcher: `accept` returns a stream only after the handshake of its
connection has succeeded. -/
def Gated (h : List DispatcherOp) : Prop :=
  ∀ pre post id stream proto, h = pre ++ .accept id (.ok (some (stream, proto))) :: post →
    .handshakeSuccess stream.connId ∈ pre

/-- What `Switch::handshake` guarantees: the handshake of a connection is started before its streams
are dispatched. -/
def Announced (h : List DispatcherOp) (_ : DispatcherState) : DispatcherOp → Prop
  | .dispatch stream _ => .handshake stream.connId ∈ h
  | _ => True

/-- The step does not dispatch a stream, for a protocol that has a listener, after the handshake of
its connection has failed. -/
def NotFailed (h : List DispatcherOp) (s : DispatcherState) : DispatcherOp → Prop
  | .dispatch stream proto => gate h stream.connId = .failed → s.raw.protos.get proto = none
  | _ => True

section Gate

variable {h : List DispatcherOp} {c : String}

theorem gate_concat (h : List DispatcherOp) (op : DispatcherOp) (c : String) :
    gate (h ++ [op]) c = (gate h c).next c op := by
  rw [gate, List.foldl_append]
  rfl

/-- The handshake has succeeded if and only if `handshake_success` has been called. -/
theorem gate_eq_authenticated_iff : gate h c = .authenticated ↔ .handshakeSuccess c ∈ h := by
  induction h using List.reverseRecOn with
  | nil => simp [gate]
  | append_singleton h op ih =>
    rw [gate_concat, List.mem_append, ← ih, List.mem_singleton]
    cases op with
    | handshake c' =>
      by_cases hg : gate h c = .authenticated <;> by_cases hc : c' = c <;>
        simp [Gate.next, hg, hc]
    | handshakeSuccess c' =>
      by_cases hc : c' = c
      · simp [Gate.next, hc]
      · simp [Gate.next, hc, Ne.symm hc]
    | handshakeFailed c' =>
      by_cases hg : gate h c = .pending <;> by_cases hc : c' = c <;> simp [Gate.next, hg, hc]
    | _ => simp [Gate.next]

theorem gate_ne_unknown (hmem : .handshake c ∈ h) : gate h c ≠ .unknown := by
  induction h using List.reverseRecOn with
  | nil => simp at hmem
  | append_singleton h op ih =>
    rw [gate_concat]
    rcases List.mem_append.1 hmem with hold | hnew
    · have hne := ih hold
      cases op with
      | handshake | handshakeSuccess | handshakeFailed =>
        simp only [Gate.next]
        split_ifs
        · simp
        · exact hne
      | _ => exact hne
    · rw [← List.mem_singleton.1 hnew]
      by_cases hg : gate h c = .authenticated <;> simp [Gate.next, hg]

theorem handshake_mem (hg : gate h c = .pending ∨ gate h c = .failed) : .handshake c ∈ h := by
  induction h using List.reverseRecOn with
  | nil => simp [gate] at hg
  | append_singleton h op ih =>
    rw [List.mem_append, List.mem_singleton]
    simp only [gate_concat] at hg
    cases op with
    | handshake c' =>
      by_cases hc : c' = c
      · exact .inr (by rw [hc])
      · exact .inl (ih (by simpa [Gate.next, hc] using hg))
    | handshakeSuccess c' =>
      by_cases hc : c' = c
      · simp [Gate.next, hc] at hg
      · exact .inl (ih (by simpa [Gate.next, hc] using hg))
    | handshakeFailed c' =>
      by_cases hp : gate h c = .pending
      · exact .inl (ih (.inl hp))
      · exact .inl (ih (by simpa [Gate.next, hp] using hg))
    | _ => exact .inl (ih hg)

theorem gate_authenticated_concat {op : DispatcherOp} (hg : gate h c = .authenticated) :
    gate (h ++ [op]) c = .authenticated := by
  rw [gate_eq_authenticated_iff] at hg ⊢
  exact List.mem_append_left _ hg

end Gate

/-! ### The cached streams -/

/-- What `unauth_streams` knows about the handshakes. -/
structure Cached (h : List DispatcherOp) (unauth : HashMap String (List Inbound)) : Prop where
  /-- There is an entry while the handshake is under way. -/
  pending : ∀ {c}, gate h c = .pending → unauth.get c ≠ none
  /-- There is none after it has failed. -/
  failed : ∀ {c}, gate h c = .failed → unauth.get c = none
  /-- The entry caches streams of the connection. -/
  own : ∀ {c cached}, unauth.get c = some cached → ∀ x ∈ cached, x.1.connId = c

namespace Cached

variable {h : List DispatcherOp} {unauth : HashMap String (List Inbound)}

theorem of_gate_eq (hc : Cached h unauth) {h' : List DispatcherOp}
    (he : ∀ c, gate h' c = gate h c) : Cached h' unauth :=
  ⟨fun hg => hc.pending (he _ ▸ hg), fun hg => hc.failed (he _ ▸ hg), hc.own⟩

theorem handshake (hc : Cached h unauth) (c : String) :
    Cached (h ++ [.handshake c]) (unauth.insert c []) where
  pending {c'} hg := by
    rw [HashMap.get_insert]
    split_ifs with hcc
    · simp
    · rw [gate_concat, Gate.next, if_neg (by simp [Ne.symm hcc])] at hg
      exact hc.pending hg
  failed {c'} hg := by
    rw [gate_concat, Gate.next] at hg
    split_ifs at hg with hcc
    have hne : c' ≠ c := by
      rintro rfl
      simp [hg] at hcc
    rw [HashMap.get_insert_ne hne]
    exact hc.failed hg
  own {c' cached} hget := by
    rw [HashMap.get_insert] at hget
    split_ifs at hget with hcc
    · cases hget
      simp
    · exact hc.own hget

theorem remove (hc : Cached h unauth) {c : String} {op : DispatcherOp}
    (hop : op = .handshakeSuccess c ∨ op = .handshakeFailed c) :
    Cached (h ++ [op]) (unauth.remove c) where
  pending {c'} hg := by
    have hne : c' ≠ c := by
      rintro rfl
      rcases hop with rfl | rfl
      · simp [gate_concat, Gate.next] at hg
      · by_cases hp : gate h c' = .pending <;> simp [gate_concat, Gate.next, hp] at hg
    have hold : gate h c' = .pending := by
      rcases hop with rfl | rfl <;> simpa [gate_concat, Gate.next, Ne.symm hne] using hg
    rw [HashMap.get_remove_ne hne]
    exact hc.pending hold
  failed {c'} hg := by
    rw [HashMap.get_remove]
    split_ifs with hcc
    · rfl
    · have hold : gate h c' = .failed := by
        rcases hop with rfl | rfl <;> simpa [gate_concat, Gate.next, Ne.symm hcc] using hg
      exact hc.failed hold
  own {c' cached} hget := hc.own (HashMap.get_of_get_remove hget).2

theorem push (hc : Cached h unauth) {stream : ProtocolStream} {cached : List Inbound}
    (hget : unauth.get stream.connId = some cached) (proto : String) :
    Cached h (unauth.insert stream.connId (cached ++ [(stream, proto)])) where
  pending {c} hg := by
    rw [HashMap.get_insert]
    split_ifs with hcc
    · simp
    · exact hc.pending hg
  failed {c} hg := by
    have hne : c ≠ stream.connId := by
      rintro rfl
      rw [hc.failed hg] at hget
      cases hget
    rw [HashMap.get_insert_ne hne]
    exact hc.failed hg
  own {c cached'} hget' := by
    rw [HashMap.get_insert] at hget'
    split_ifs at hget' with hcc
    · cases hget'
      intro x hx
      rcases List.mem_append.1 hx with hold | hnew
      · rw [hcc]
        exact hc.own hget x hold
      · rw [List.mem_singleton.1 hnew, hcc]
    · exact hc.own hget'

theorem dispatch {raw raw' : RawMutexStreamDispatcher} (hc : Cached h raw.unauthStreams)
    {stream : ProtocolStream} {proto : String} (hd : raw.dispatch stream proto = .ok raw') :
    Cached h raw'.unauthStreams := by
  rcases RawMutexStreamDispatcher.dispatch_cases hd with
    ⟨cached, hget, rfl⟩ | ⟨-, id, streams, -, -, rfl⟩ | ⟨-, -, rfl⟩
  · exact hc.push hget proto
  · exact hc
  · exact hc

end Cached

/-! ### The invariants -/

namespace DispatcherState

/-- What holds in every run. -/
structure Wf (h : List DispatcherOp) (s : DispatcherState) : Prop where
  /-- Every protocol has a queue. -/
  routed : s.raw.Routed
  /-- The cached streams belong to connections whose handshake is under way. -/
  cached : Cached h s.raw.unauthStreams
  /-- A running `handshake_success` dispatches streams of a connection whose handshake has
  succeeded. -/
  redispatching : ∀ streams ∈ s.redispatching, ∀ x ∈ streams, gate h x.1.connId = .authenticated

/-- What holds in addition as long as the steps meet `NotFailed`: only streams of connections whose
handshake has succeeded wait for an `accept`. -/
def Guarded (h : List DispatcherOp) (s : DispatcherState) : Prop :=
  ∀ id streams, s.raw.inboundStreams.get id = some streams → ∀ x ∈ streams,
    gate h x.1.connId = .authenticated

end DispatcherState

variable {h : List DispatcherOp} {s s' : DispatcherState} {op : DispatcherOp}

theorem DispatcherStep.wf (hw : s.Wf h) (hst : DispatcherStep s op s') : s'.Wf (h ++ [op]) := by
  have hkeep : ∀ streams ∈ s.redispatching, ∀ x ∈ streams,
      gate (h ++ [op]) x.1.connId = .authenticated :=
    fun streams hmem x hx => gate_authenticated_concat (hw.redispatching streams hmem x hx)
  have hquiet : (∀ c, gate (h ++ [op]) c = gate h c) → Cached (h ++ [op]) s.raw.unauthStreams :=
    hw.cached.of_gate_eq
  cases hst with
  | handshake connId => exact ⟨hw.routed, hw.cached.handshake connId, hkeep⟩
  | handshakeSuccess connId =>
    refine ⟨hw.routed, hw.cached.remove (.inl rfl), ?_⟩
    intro streams hmem x hx
    rcases List.mem_cons.1 hmem with rfl | hmem
    · -- the streams taken from the cache belong to the connection that is authenticated now
      obtain ⟨cached, hget, hx⟩ := RawMutexStreamDispatcher.mem_handshakeSuccess hx
      rw [hw.cached.own hget x hx, gate_eq_authenticated_iff]
      exact List.mem_concat_self
    · exact hkeep streams hmem x hx
  | redispatch stream proto before rest after hs hd =>
    refine ⟨hw.routed.of_dispatch hd, (hw.cached.dispatch hd).of_gate_eq fun c => gate_concat ..,
      ?_⟩
    -- what is left of the call is part of what it had to dispatch before
    intro streams hmem x hx
    rw [hs] at hkeep
    rcases List.mem_append.1 hmem with hmem | hmem
    · exact hkeep streams (List.mem_append_left _ hmem) x hx
    · rcases List.mem_cons.1 hmem with rfl | hmem
      · exact hkeep _ (List.mem_append_right _ List.mem_cons_self) x (List.mem_cons_of_mem _ hx)
      · exact hkeep streams (List.mem_append_right _ (List.mem_cons_of_mem _ hmem)) x hx
  | handshakeFailed connId => exact ⟨hw.routed, hw.cached.remove (.inr rfl), hkeep⟩
  | bind id protocols hb =>
    obtain ⟨-, -, hunauth, -⟩ := RawMutexStreamDispatcher.bind_spec hb
    exact ⟨hw.routed.bind hb, hunauth.symm ▸ hquiet fun c => gate_concat .., hkeep⟩
  | bindError id protocols hb => exact ⟨hw.routed, hquiet fun c => gate_concat .., hkeep⟩
  | close id => exact ⟨hw.routed.close id, hquiet fun c => gate_concat .., hkeep⟩
  | accept id =>
    obtain ⟨-, hunauth, -⟩ := RawMutexStreamDispatcher.accept_frame s.raw id
    exact ⟨hw.routed.accept id, hunauth.symm ▸ hquiet fun c => gate_concat .., hkeep⟩
  | dispatch stream proto hd =>
    exact ⟨hw.routed.of_dispatch hd, (hw.cached.dispatch hd).of_gate_eq fun c => gate_concat ..,
      hkeep⟩
  | drop => exact ⟨hw.routed, hquiet fun c => gate_concat .., hkeep⟩

/-- Dispatching a stream keeps the queues guarded, if it is not queued or its connection is
authenticated. -/
theorem DispatcherState.Guarded.dispatch {raw : RawMutexStreamDispatcher} (hg : s.Guarded h)
    {stream : ProtocolStream} {proto : String} (hd : s.raw.dispatch stream proto = .ok raw)
    (ha : s.raw.unauthStreams.get stream.connId = none → s.raw.protos.get proto ≠ none →
      gate h stream.connId = .authenticated) {redispatching : List (List Inbound)} :
    DispatcherState.Guarded h ⟨raw, redispatching⟩ := by
  rcases RawMutexStreamDispatcher.dispatch_cases hd with
    ⟨cached, -, rfl⟩ | ⟨hnone, id, streams, hid, hget, rfl⟩ | ⟨-, -, rfl⟩
  · exact hg
  · intro id' streams' hget' x hx
    simp only [HashMap.get_insert] at hget'
    split_ifs at hget' with hii
    · cases hget'
      rcases List.mem_append.1 hx with hold | hnew
      · exact hg id streams hget x hold
      · rw [List.mem_singleton.1 hnew]
        exact ha hnone (by simp [hid])
    · exact hg id' streams' hget' x hx
  · exact hg

theorem DispatcherState.Guarded.mono (hg : s.Guarded h) : s.Guarded (h ++ [op]) :=
  fun id streams hget x hx => gate_authenticated_concat (hg id streams hget x hx)

theorem DispatcherStep.guarded (hw : s.Wf h) (hg : s.Guarded h) (ha : Announced h s op)
    (hn : NotFailed h s op) (hst : DispatcherStep s op s') : s'.Guarded (h ++ [op]) := by
  cases hst with
  | handshake | handshakeSuccess | handshakeFailed | bindError | drop => exact hg.mono
  | redispatch stream proto before rest after hs hd =>
    refine (hg.dispatch hd fun _ _ => ?_).mono
    exact hw.redispatching ((stream, proto) :: rest) (by simp [hs]) (stream, proto) (by simp)
  | bind id protocols hb =>
    obtain ⟨-, -, -, -, hinbound⟩ := RawMutexStreamDispatcher.bind_spec hb
    intro id' streams hget
    rw [hinbound] at hget
    split_ifs at hget with hii
    · cases hget
      simp
    · exact hg.mono id' streams hget
  | close id =>
    intro id' streams hget
    rw [RawMutexStreamDispatcher.get_inbound_close] at hget
    split_ifs at hget
    exact hg.mono id' streams hget
  | accept id =>
    obtain ⟨-, -, hsub⟩ := RawMutexStreamDispatcher.accept_frame s.raw id
    intro id' streams hget x hx
    obtain ⟨streams', hget', hss⟩ := hsub id' streams hget
    exact hg.mono id' streams' hget' x (hss hx)
  | dispatch stream proto hd =>
    refine (hg.dispatch hd fun hnone hbound => ?_).mono
    -- no entry: the handshake is not under way, and it has neither failed nor not been started
    rcases hstate : gate h stream.connId with _ | _ | _ | _
    · exact absurd hstate (gate_ne_unknown ha)
    · exact absurd hnone (hw.cached.pending hstate)
    · exact absurd (hn hstate) hbound
    · rfl

theorem DispatcherStep.answer_eq {id : XStackId} {answer : Except Error (Option Inbound)}
    (hst : DispatcherStep s (.accept id answer) s') : (s.raw.accept id).1 = answer := by
  cases hst
  rfl

theorem dispatcherLts_wf (hr : dispatcherLts.Run h s) : s.Wf h := by
  refine hr.invariant ?_ fun h s op s' _ hw hst => DispatcherStep.wf hw hst
  rintro s rfl
  refine ⟨RawMutexStreamDispatcher.routed_default, ⟨?_, ?_, ?_⟩, by simp⟩ <;>
    simp [gate, RawMutexStreamDispatcher.default]

theorem dispatcherLts_guarded
    (hr : dispatcherLts.RunWhere (fun h s op => Announced h s op ∧ NotFailed h s op) h s) :
    s.Guarded h := by
  refine hr.invariant ?_ fun h s op s' hr hg hc hst =>
    DispatcherStep.guarded (dispatcherLts_wf hr.run) hg hc.1 hc.2 hst
  rintro s rfl id streams hget
  simp [RawMutexStreamDispatcher.default] at hget

/-- A stream that waits for an `accept` is accepted after those before it. -/
theorem exists_accepted {id : XStackId} {x : Inbound} {rest : List Inbound}
    (streams : List Inbound) (hr : dispatcherLts.RunWhere Announced h s)
    (hget : s.raw.inboundStreams.get id = some (streams ++ x :: rest)) :
    ∃ ops s', dispatcherLts.RunWhere Announced (h ++ ops ++ [.accept id (.ok (some x))]) s' ∧
      ∀ op ∈ ops, ∃ y, op = .accept id (.ok (some y)) := by
  induction streams generalizing h s with
  | nil =>
    have hst := DispatcherStep.accept s id
    rw [RawMutexStreamDispatcher.accept_eq hget] at hst
    have ha : Announced h s (.accept id (.ok (some x))) := trivial
    exact ⟨[], _, by simpa using hr.snoc ha hst, by simp⟩
  | cons y streams ih =>
    have hst := DispatcherStep.accept s id
    rw [RawMutexStreamDispatcher.accept_eq hget] at hst
    have ha : Announced h s (.accept id (.ok (some y))) := trivial
    obtain ⟨ops, s', hr', hops⟩ := ih (hr.snoc ha hst) (HashMap.get_insert_self ..)
    refine ⟨.accept id (.ok (some y)) :: ops, s', by simpa using hr', ?_⟩
    intro op hop
    rcases List.mem_cons.1 hop with rfl | hop
    · exact ⟨y, rfl⟩
    · exact hops op hop

/-- **When the gate is shut.**  If no step of a run dispatches a stream, for a protocol with a
listener, after the handshake of its connection has failed, then `accept` returns streams of
authenticated connections only.  And a run that can take such a step can be continued to an `accept`
that returns the stream. -/
theorem handshake_gate (h : List DispatcherOp) (s : DispatcherState) :
    (dispatcherLts.RunWhere (fun h s op => Announced h s op ∧ NotFailed h s op) h s → Gated h) ∧
    ∀ stream proto, dispatcherLts.RunWhere Announced h s → gate h stream.connId = .failed →
      s.raw.protos.get proto ≠ none →
      ∃ ops s', dispatcherLts.RunWhere Announced (h ++ .dispatch stream proto :: ops) s' ∧
        ¬ Gated (h ++ .dispatch stream proto :: ops) := by
  constructor
  · rintro hr pre post id stream proto rfl
    obtain ⟨s₁, s₂, hpre, -, hst⟩ := hr.split
    obtain ⟨streams, hget⟩ := RawMutexStreamDispatcher.accept_some hst.answer_eq
    rw [← gate_eq_authenticated_iff]
    exact dispatcherLts_guarded hpre id _ hget (stream, proto) List.mem_cons_self
  · intro stream proto hr hfailed hbound
    have hw := dispatcherLts_wf hr.run
    have hnone := hw.cached.failed hfailed
    obtain ⟨id, hid⟩ := Option.ne_none_iff_exists'.1 hbound
    obtain ⟨streams, hget⟩ := hw.routed proto id hid
    -- the connection has no cache any more, so the stream is queued at once
    have hd : s.raw.dispatch stream proto = .ok { s.raw with
        inboundStreams := s.raw.inboundStreams.insert id (streams ++ [(stream, proto)]) } := by
      simp only [RawMutexStreamDispatcher.dispatch, hnone, hid, hget]
    have ha : Announced h s (.dispatch stream proto) := handshake_mem (.inr hfailed)
    have hdispatched := hr.snoc ha (DispatcherStep.dispatch stream proto hd)
    obtain ⟨ops, s', hr', hops⟩ := exists_accepted streams hdispatched (HashMap.get_insert_self ..)
    refine ⟨ops ++ [.accept id (.ok (some (stream, proto)))], s', by simpa using hr', ?_⟩
    intro hgated
    have hmem := hgated (h ++ .dispatch stream proto :: ops) [] id stream proto (by simp)
    have hnot : .handshakeSuccess stream.connId ∉ h := by
      rw [← gate_eq_authenticated_iff, hfailed]
      simp
    rcases List.mem_append.1 hmem with hmem | hmem
    · exact hnot hmem
    · rcases List.mem_cons.1 hmem with hmem | hmem
      · cases hmem
      · obtain ⟨y, hy⟩ := hops _ hmem
        cases hy

section Sample

/-- A stream of the connection `c`. -/
def echoStream : ProtocolStream := ⟨"s", "c", keyB, []⟩

/-- The protocol of a stream is negotiated after the handshake of its connection has failed, and the
listener accepts the stream. -/
theorem gate_open_after_failure : ¬ ∀ h s, dispatcherLts.RunWhere Announced h s → Gated h := by
  intro hall
  have start : dispatcherLts.RunWhere Announced [] ⟨.default, []⟩ := .start rfl
  have hbind : DispatcherStep ⟨.default, []⟩ (.bind ⟨0⟩ ["/echo"] (.ok ())) _ := .bind _ _ rfl
  have bound := start.snoc (by exact trivial) hbind
  have shaking := bound.snoc (by exact trivial) (DispatcherStep.handshake _ "c")
  have failed := shaking.snoc (by exact trivial) (DispatcherStep.handshakeFailed _ "c")
  have dispatched := failed.snoc (by simp [Announced, echoStream])
    (DispatcherStep.dispatch echoStream "/echo" rfl)
  have accepted := dispatched.snoc (by exact trivial) (DispatcherStep.accept _ ⟨0⟩)
  have hmem := hall _ _ accepted _ [] ⟨0⟩ echoStream "/echo" rfl
  simp [echoStream] at hmem

end Sample

end XStack
