import XStack.Async.Passes
import XStack.Data.Except
import XStack.Stream.Gate
import XStack.Switch.Connect

/-!
# What a handshake leaves behind

`Switch::handshake` makes an entry for the connection in `unauth_streams`.  Only `handshake_success`
and `handshake_failed` remove it, and `identity_request` comes to one of them after the stream for
the identify message has been opened.  If the stream cannot be opened, or the timer of the handshake
fires before the removal, the entry stays, with all the streams that are cached in it
(`residue_left`).

## Main definitions

* `identityPushAwaits` : the number of await points that `identity_push` passes.
* `OtherTasks` : what the other tasks do to the dispatcher during a handshake.

## Main results

* `identityPush_passes`, `identityRequest_residue` : how far the code comes.
* `handshake_residue_iff` : when a handshake leaves nothing behind.
-/

namespace XStack

section

variable [Libp2p]

/-- What `identity_push` checks once it has read the length of the message. -/
def recordable (connPeerId : PeerId) (rest : List UInt8) (bodyLen : ℕ) : Except Error Unit := do
  let buf ← readExact rest bodyLen
  let identity ← Libp2p.parseIdentity buf
  let pubkey ← Libp2p.tryDecodeProtobuf identity.publicKey
  if connPeerId ≠ pubkey.toPeerId then .error .authenticateFailed
  else
    let _raddrs ← identity.listenAddrs.mapM Libp2p.decodeMultiaddr
    let _observedAddrs ← identity.observedAddr.toList.mapM Libp2p.decodeMultiaddr

/-- The await points that `identity_push` passes: it reads the length, reads the rest of the
message, and takes two mutexes to record it. -/
def identityPushAwaits (maxPacketSize : ℕ) (connPeerId : PeerId) (received : List UInt8) : ℕ :=
  match Libp2p.readUsize received with
  | .error _ => 1
  | .ok (bodyLen, rest) =>
    if maxPacketSize < bodyLen then 1
    else
      match recordable connPeerId rest bodyLen with
      | .error _ => 2
      | .ok () => 4

variable {ops : SwitchOptions} {connPeerId : PeerId} {received : List UInt8} {now : SystemTime}
  {J : RawMutexStreamDispatcher → Prop}

theorem xstackRecvIdentity_passes {I : SwitchState → Prop} {bodyLen : ℕ} {rest : List UInt8}
    (hlen : Libp2p.readUsize received = .ok (bodyLen, rest)) (hfits : bodyLen ≤ ops.maxPacketSize) :
    Async.Passes I 2 (xstackRecvIdentity received ops.maxPacketSize : SwitchM Identity)
      (· = (readExact rest bodyLen >>= Libp2p.parseIdentity)) := by
  refine Async.Passes.bind (n := 1) (m := 1) (.await (P := (· = .ok ())) rfl) ?_ (by simp)
  rintro - -
  refine .ofExcept_bind (fun a ha => ?_) (fun e he => ?_)
  · rw [hlen] at ha
    cases ha
    simp only [Nat.not_lt.2 hfits, ↓reduceIte]
    refine Async.Passes.bind (n := 1) (m := 0) (.await (P := (· = .ok ())) rfl) ?_ (by simp)
    rintro - -
    refine .ofExcept_bind (fun buf hbuf => ?_) (fun e he => ?_)
    · exact .ofExcept (by rw [hbuf]; rfl)
    · exact ⟨rfl, by rw [he]; rfl⟩
  · rw [hlen] at he
    cases he

theorem xstackRecvIdentity_fails {I : SwitchState → Prop} {err : Error}
    (hlen : Libp2p.readUsize received = .error err ∨ ∃ bodyLen rest,
      Libp2p.readUsize received = .ok (bodyLen, rest) ∧ ops.maxPacketSize < bodyLen ∧
        err = .overflow bodyLen) :
    Async.Passes I 1 (xstackRecvIdentity received ops.maxPacketSize : SwitchM Identity)
      (· = .error err) := by
  refine Async.Passes.bind (n := 1) (m := 0) (.await (P := (· = .ok ())) rfl) ?_ (by simp)
  rintro - -
  refine .ofExcept_bind (fun a ha => ?_) (fun e he => ⟨rfl, ?_⟩)
  · rcases hlen with hlen | ⟨bodyLen, rest, hlen, hlong, rfl⟩
    · rw [hlen] at ha
      cases ha
    · rw [hlen] at ha
      cases ha
      simp only [hlong, ↓reduceIte]
      exact .fail rfl
  · rcases hlen with hlen | ⟨bodyLen, rest, hlen, -⟩
    · rw [hlen] at he
      cases he
      rfl
    · rw [hlen] at he
      cases he

omit [Libp2p] in
theorem record_passes {addrs : List Multiaddr} {info : PeerInfo} :
    Async.Passes (fun s : SwitchState => J s.streamDispatcher) 2 (do
      SwitchM.setObservedAddrs addrs
      let _ ← SwitchM.insertPeerInfo info : SwitchM Unit) fun _ => True := by
  have hset : (SwitchM.setObservedAddrs addrs).Passes
      (fun s : SwitchState => J s.streamDispatcher) 1 (· = .ok ()) :=
    .lock (fun s hs => ⟨(), _, rfl, hs⟩) (fun _ => rfl)
  have hinsert : (SwitchM.insertPeerInfo info).Passes
      (fun s : SwitchState => J s.streamDispatcher) 1 (fun r => ∃ older, r = .ok older) :=
    .lock (fun s hs => ⟨_, _, rfl, hs⟩) (fun older => ⟨older, rfl⟩)
  refine hset.bind (m := 1) (fun _ _ => ?_) (by simp)
  exact hinsert.bind (m := 0) (fun _ _ => .pure True.intro) (by simp)

/-- `identity_push` does not touch the dispatcher, and ends after `identityPushAwaits` await points
unless it is dropped before. -/
theorem identityPush_passes :
    (identityPush ops connPeerId received now).Passes (fun s => J s.streamDispatcher)
      (identityPushAwaits ops.maxPacketSize connPeerId received) fun _ => True := by
  unfold identityPushAwaits
  split
  · next err hlen =>
    exact (xstackRecvIdentity_fails (.inl hlen)).bind (m := 0) (by simp) (by simp)
  · next bodyLen rest hlen =>
    split_ifs with hlong
    · exact (xstackRecvIdentity_fails (.inr ⟨bodyLen, rest, hlen, hlong, rfl⟩)).bind (m := 0)
        (by simp) (by simp)
    · have hrecv := xstackRecvIdentity_passes (I := fun s => J s.streamDispatcher) hlen
        (Nat.not_lt.1 hlong)
      -- what is left are computations, and the two mutexes if all of them succeed
      split
      · next err hrecord =>
        refine hrecv.bind (m := 0) (fun identity hidentity => ?_) (by simp)
        obtain ⟨buf, hbuf, hparse⟩ := bind_eq_ok.1 hidentity.symm
        simp only [recordable, hbuf, hparse, bind, Except.bind] at hrecord
        refine .ofExcept_bind (fun pubkey hkey => ?_) (by simp)
        rw [hkey] at hrecord
        simp only at hrecord ⊢
        split_ifs at hrecord ⊢
        · exact .fail True.intro
        · refine .ofExcept_bind (fun raddrs hraddrs => ?_) (by simp)
          rw [hraddrs] at hrecord
          refine .ofExcept_bind (fun observedAddrs hobserved => ?_) (by simp)
          rw [hobserved] at hrecord
          cases hrecord
      · next hrecord =>
        obtain ⟨buf, hbuf, hrecord⟩ := bind_eq_ok.1 hrecord
        obtain ⟨identity, hparse, hrecord⟩ := bind_eq_ok.1 hrecord
        obtain ⟨pubkey, hkey, hrecord⟩ := bind_eq_ok.1 hrecord
        refine hrecv.bind (m := 2) (fun identity' hidentity => ?_)
          (by simp [hbuf, hparse, bind, Except.bind])
        rw [hbuf] at hidentity
        cases hidentity.trans hparse
        refine .ofExcept_bind (fun pubkey' hkey' => ?_) (by simp [hkey])
        cases hkey.symm.trans hkey'
        simp only at hrecord ⊢
        split_ifs at hrecord ⊢
        obtain ⟨raddrs, hraddrs, hrecord⟩ := bind_eq_ok.1 hrecord
        obtain ⟨observedAddrs, hobserved, -⟩ := bind_eq_ok.1 hrecord
        refine .ofExcept_bind (fun _ _ => ?_) (by simp [hraddrs])
        refine .ofExcept_bind (fun _ _ => ?_) (by simp [hobserved])
        exact record_passes

/-! ### The other tasks -/

omit [Libp2p] in
/-- An operation of the dispatcher that is not about the handshake of the connection `c`. -/
def OtherStep (c : String) (d d' : DispatcherState) : Prop :=
  ∃ op, DispatcherStep d op d' ∧ op ≠ .handshake c ∧ op ≠ .handshakeSuccess c ∧
    op ≠ .handshakeFailed c

omit [Libp2p] in
/-- What the other tasks do to the dispatcher while the handshake of the connection `c` runs: they
use its operations, but those for this handshake are called by `Switch::handshake` alone, with the
fresh id of the connection. -/
def OtherTasks (c : String) (others : ℕ → SwitchState → SwitchState) : Prop :=
  ∀ n s, ∃ running running', Relation.ReflTransGen (OtherStep c)
    ⟨s.streamDispatcher, running⟩ ⟨(others n s).streamDispatcher, running'⟩

/-- The dispatcher has an entry for the handshake of the connection. -/
def RawMutexStreamDispatcher.HasEntry (raw : RawMutexStreamDispatcher) (c : String) : Prop :=
  ∃ cached, raw.unauthStreams.get c = some cached

omit [Libp2p] in
theorem hasEntry_dispatch {raw raw' : RawMutexStreamDispatcher} {stream : ProtocolStream}
    {proto c : String} (h : raw.dispatch stream proto = .ok raw') :
    raw'.HasEntry c ↔ raw.HasEntry c := by
  rcases RawMutexStreamDispatcher.dispatch_cases h with
    ⟨cached, hcached, rfl⟩ | ⟨-, id, streams, -, -, rfl⟩ | ⟨-, -, rfl⟩
  · by_cases hc : c = stream.connId
    · subst hc
      simp [RawMutexStreamDispatcher.HasEntry, hcached]
    · simp [RawMutexStreamDispatcher.HasEntry, HashMap.get_insert_ne hc]
  · rfl
  · rfl

omit [Libp2p] in
theorem OtherStep.hasEntry {c : String} {d d' : DispatcherState} (h : OtherStep c d d') :
    d'.raw.HasEntry c ↔ d.raw.HasEntry c := by
  obtain ⟨op, hst, hstarted, hsuccess, hfailed⟩ := h
  cases hst with
  | handshake c' =>
    have hne : c ≠ c' := fun he => hstarted (by rw [he])
    simp [RawMutexStreamDispatcher.HasEntry, RawMutexStreamDispatcher.handshake,
      HashMap.get_insert_ne hne]
  | handshakeSuccess c' =>
    have hne : c ≠ c' := fun he => hsuccess (by rw [he])
    simp [RawMutexStreamDispatcher.HasEntry, RawMutexStreamDispatcher.handshakeSuccess,
      HashMap.get_remove_ne hne]
  | handshakeFailed c' =>
    have hne : c ≠ c' := fun he => hfailed (by rw [he])
    simp [RawMutexStreamDispatcher.HasEntry, RawMutexStreamDispatcher.handshakeFailed,
      HashMap.get_remove_ne hne]
  | redispatch stream proto before rest after hrunning hd => exact hasEntry_dispatch hd
  | dispatch stream proto hd => exact hasEntry_dispatch hd
  | bind id protocols hb =>
    simp only [RawMutexStreamDispatcher.HasEntry, (RawMutexStreamDispatcher.bind_spec hb).2.2.1]
  | accept id =>
    simp only [RawMutexStreamDispatcher.HasEntry,
      (RawMutexStreamDispatcher.accept_frame d.raw id).2.1]
  | bindError | close | drop => rfl

omit [Libp2p] in
/-- The other tasks neither make nor remove the entry. -/
theorem OtherTasks.hasEntry {c : String} {others : ℕ → SwitchState → SwitchState}
    (h : OtherTasks c others) (n : ℕ) (s : SwitchState) :
    (others n s).streamDispatcher.HasEntry c ↔ s.streamDispatcher.HasEntry c := by
  obtain ⟨running, running', hsteps⟩ := h n s
  suffices hall : ∀ d, Relation.ReflTransGen (OtherStep c) ⟨s.streamDispatcher, running⟩ d →
      (d.raw.HasEntry c ↔ s.streamDispatcher.HasEntry c) from hall _ hsteps
  intro d hd
  induction hd with
  | refl => rfl
  | tail _ hst ih => exact hst.hasEntry.trans ih

/-! ### How the handshake ends -/

variable {conn : P2pConn} {attempt : Attempt} {timing : Timing} {c : String}

omit [Libp2p] in
theorem dispatchAll_keeps (streams : List Inbound) :
    (dispatchAll streams).Keeps fun s => ¬ s.streamDispatcher.HasEntry c := by
  induction streams with
  | nil => exact .pure ()
  | cons x streams ih =>
    refine Async.Keeps.bind (.lock fun s a s' hs hd => ?_) fun _ => ih
    obtain ⟨⟨u, raw⟩, hraw, he⟩ := bind_eq_ok.1 hd
    cases hdispatch : s.streamDispatcher.dispatch x.1 x.2 with
    | error reason => simp [hdispatch, Except.map] at hraw
    | ok raw' =>
      simp only [hdispatch, Except.map, Except.ok.injEq, Prod.mk.injEq, true_and] at hraw
      cases he
      subst hraw
      rw [hasEntry_dispatch hdispatch]
      exact hs

omit [Libp2p] in
theorem OtherTasks.safe {w : World SwitchState} (h : OtherTasks c w.others)
    (hs : w.state.streamDispatcher.HasEntry c) : w.Safe fun s => s.streamDispatcher.HasEntry c :=
  ⟨hs, fun n s => (h.hasEntry n s).2⟩

/-- What `identity_request` does when `identity_push` has ended. -/
def identityEnd (conn : P2pConn) : Except Error Unit → SwitchM Unit
  | .ok () => do
    handshakeSuccess conn.id
    SwitchM.raise (.handshakeSuccess conn.id conn.peerId)
  | .error err => do
    handshakeFailed conn.id
    SwitchM.raise (.handshakeFailed conn.id conn.peerId)
    Async.fail err

/-- If the stream cannot be opened, `identity_request` leaves the entry. -/
theorem identityRequest_unopened {I : SwitchState → Prop} {err : Error} :
    (identityRequest ops conn (.error err) now).Passes I 1 (· = .error err) := by
  refine Async.Passes.bind (n := 1) (m := 0) (.await (P := (· = .ok ())) rfl) ?_ (by simp)
  rintro - -
  exact .ofExcept_bind (by simp) (by simp [eq_comm])

omit [Libp2p] in
/-- What `identity_request` does once `identity_push` has ended: it removes the entry. -/
theorem identityRequest_removes {w : World SwitchState} (hothers : OtherTasks conn.id w.others)
    {rest : SwitchM Unit} (hrest : rest.Keeps fun s => ¬ s.streamDispatcher.HasEntry conn.id)
    {removal : SwitchM Unit} (hremoval : removal = handshakeSuccess conn.id ∨
      removal = handshakeFailed conn.id) :
    (w.expired = true → (removal >>= fun _ => rest) w = (.error .cancelled, w)) ∧
    (w.expired = false → w.Follows (fun s => ¬ s.streamDispatcher.HasEntry conn.id)
      ((removal >>= fun _ => rest) w).2) := by
  have hstable : ∀ n s, ¬ s.streamDispatcher.HasEntry conn.id →
      ¬ (w.others n s).streamDispatcher.HasEntry conn.id := fun n s hs he =>
    hs ((hothers.hasEntry n s).1 he)
  rcases hremoval with rfl | rfl
  · unfold handshakeSuccess SwitchM.withDispatcher
    rw [Async.bind_assoc]
    refine ⟨fun hw => Async.lock_bind_dropped hw, fun hw => ?_⟩
    refine Async.lock_bind_follows hw hstable (fun s => ⟨_, _, rfl, ?_⟩) fun streams =>
      (dispatchAll_keeps streams).bind fun _ => hrest
    simp [RawMutexStreamDispatcher.HasEntry]
  · unfold handshakeFailed SwitchM.withDispatcher
    refine ⟨fun hw => Async.lock_bind_dropped hw, fun hw => ?_⟩
    refine Async.lock_bind_follows hw hstable (fun s => ⟨_, _, rfl, ?_⟩) fun _ => hrest
    simp [RawMutexStreamDispatcher.HasEntry, RawMutexStreamDispatcher.handshakeFailed]

/-- **How `identity_request` leaves the entry** once the stream has been opened: it stays if the
timer fires at an await point of `identity_push` or at the next one, where the mutex for the removal
is taken, and it is gone if the timer does not. -/
theorem identityRequest_residue {w : World SwitchState} (hothers : OtherTasks conn.id w.others)
    (hs : w.state.streamDispatcher.HasEntry conn.id) :
    (∃ w', identityRequest ops conn (.ok received) now w = (.error .cancelled, w') ∧
      Async.DroppedBy (fun s => s.streamDispatcher.HasEntry conn.id)
        (1 + identityPushAwaits ops.maxPacketSize conn.peerId received + 1) w w') ∨
    (∀ d, w.deadline = some d →
      w.now + (1 + identityPushAwaits ops.maxPacketSize conn.peerId received) < d) ∧
      w.Follows (fun s => ¬ s.streamDispatcher.HasEntry conn.id)
        (identityRequest ops conn (.ok received) now w).2 := by
  -- up to the end of `identity_push`
  let front : SwitchM (Except Error Unit) :=
    Async.await >>= fun _ => (identityPush ops conn.peerId received now).settle
  have hsplit : identityRequest ops conn (.ok received) now = front >>= identityEnd conn := by
    rw [Async.bind_assoc]
    rfl
  have hfront : front.Passes (fun s => s.streamDispatcher.HasEntry conn.id)
      (1 + identityPushAwaits ops.maxPacketSize conn.peerId received) fun r => ∃ r', r = .ok r' :=
    Async.Passes.bind (.await (P := (· = .ok ())) rfl)
      (fun _ _ => (identityPush_passes (J := (·.HasEntry conn.id))).settle.mono
        fun _ => Exists.imp fun _ => And.left) (by simp)
  have hraise : ∀ event, (SwitchM.raise event).Keeps
      fun s => ¬ s.streamDispatcher.HasEntry conn.id := fun event =>
    .lock fun s a s' hs he => by
      cases he
      exact hs
  rw [hsplit]
  rcases hfront w (hothers.safe hs) with ⟨w₁, hw₁, hdropped⟩ | ⟨r, w₁, hw₁, hpassed, r', rfl⟩
  · exact .inl ⟨w₁, by rw [Async.bind_apply, hw₁], hdropped.mono (by omega)⟩
  · have hend : (front >>= identityEnd conn) w = identityEnd conn r' w₁ := by
      rw [Async.bind_apply, hw₁]
      rfl
    have hothers₁ : OtherTasks conn.id w₁.others := hpassed.follows.others ▸ hothers
    obtain ⟨hdropped, hremoved⟩ :
        (w₁.expired = true → identityEnd conn r' w₁ = (.error .cancelled, w₁)) ∧
        (w₁.expired = false → w₁.Follows (fun s => ¬ s.streamDispatcher.HasEntry conn.id)
          (identityEnd conn r' w₁).2) := by
      cases r' with
      | ok u => exact identityRequest_removes hothers₁ (hraise _) (.inl rfl)
      | error err =>
        exact identityRequest_removes hothers₁ ((hraise _).bind fun _ => .fail err) (.inr rfl)
    rw [hend]
    by_cases hexpired : w₁.expired = true
    · exact .inl ⟨w₁, hdropped hexpired, hpassed.follows, hexpired, by
        have := hpassed.now_eq
        omega⟩
    · refine .inr ⟨fun d hd => ?_, ?_⟩
      · rw [World.expired_iff] at hexpired
        have hlate : ¬ d ≤ w₁.now := fun hle =>
          hexpired ⟨d, hpassed.follows.deadline.trans hd, hle⟩
        have := hpassed.now_eq
        omega
      · exact hpassed.follows.trans (hremoved (by simpa using hexpired))

/-- The block has returned: it has neither been dropped nor panicked. -/
def Returned {ε π α : Type} : Except (Stop ε π) α → Prop
  | .ok _ => True
  | .error (.error _) => True
  | .error (.aborted _) => False
  | .error .cancelled => False

/-- A handshake that returns has made the entry and run `identity_request` under its timer, and no
timer further out has fired. -/
theorem handshake_started {w w' : World SwitchState} {r : Except (Stop Error Panic) Unit}
    (h : handshake ops conn attempt timing w = (r, w')) (hr : Returned r) :
    ∃ w₁ : World SwitchState, w₁.others = w.others ∧ w₁.state.streamDispatcher.HasEntry conn.id ∧
      w'.state = (identityRequest ops conn attempt.identify timing.now
        (Async.under w₁ timing.identify)).2.state ∧
      ∀ v, identityRequest ops conn attempt.identify timing.now (Async.under w₁ timing.identify) =
        (.error .cancelled, v) → World.expired { v with deadline := w₁.deadline } = false := by
  by_cases hexpired : w.expired = true
  · have hdropped : handshake ops conn attempt timing w = (.error .cancelled, w) :=
      Async.lock_bind_dropped hexpired
    rw [hdropped] at h
    cases h
    exact absurd hr (by simp [Returned])
  let s₀ := w.others w.now w.state
  let w₁ : World SwitchState := { w with
    now := w.now + 1
    state := { s₀ with streamDispatcher := s₀.streamDispatcher.handshake conn.id } }
  let request := Async.timeout timing.identify
    (identityRequest ops conn attempt.identify timing.now)
  have hrest : handshake ops conn attempt timing w =
      (request >>= fun result => Async.ofExcept (okOr .timeout result)) w₁ := by
    have hawait : (Async.await : SwitchM Unit) w =
        (.ok (), { w with now := w.now + 1, state := s₀ }) := by
      rw [Async.await, if_neg hexpired]
    have hlock : SwitchM.withDispatcher (fun raw => .ok ((), raw.handshake conn.id)) w =
        (.ok (), w₁) := (Async.bind_apply Async.await _ w).trans (by rw [hawait]; rfl)
    rw [handshake, Async.bind_apply, hlock]
  rw [hrest, Async.bind_apply] at h
  have hstate : w'.state = (request w₁).2.state := by
    rcases hrequest : request w₁ with ⟨_ | result, w₂⟩ <;> rw [hrequest] at h
    · cases h
      rfl
    · simp only [Async.ofExcept_apply, Prod.mk.injEq] at h
      rw [← h.2]
  refine ⟨w₁, rfl, ⟨[], HashMap.get_insert_self ..⟩, ?_, fun v hv => ?_⟩
  · rw [hstate, Async.timeout_state]
  · have hanswer := Async.timeout_dropped hv
    cases hout : World.expired { v with deadline := w₁.deadline } with
    | false => rfl
    | true =>
      -- the timer further out would have dropped the handshake
      rw [hout, if_pos rfl] at hanswer
      have hcancelled : (request w₁).1 = .error .cancelled := hanswer
      rcases hrequest : request w₁ with ⟨e | result, w₂⟩ <;> rw [hrequest] at hcancelled h
      · cases hcancelled
        cases h
        exact absurd hr (by simp [Returned])
      · cases hcancelled

/-- **When a handshake leaves nothing behind.**  Once `Switch::handshake` has returned, the entry of
the connection is gone if and only if the stream for the identify message could be opened and the
timer fired neither during `identity_push` nor while the removal waited for its mutex. -/
theorem handshake_residue_iff {w w' : World SwitchState} {r : Except (Stop Error Panic) Unit}
    (hothers : OtherTasks conn.id w.others)
    (h : handshake ops conn attempt timing w = (r, w')) (hr : Returned r) :
    w'.state.streamDispatcher.unauthStreams.get conn.id = none ↔
      ∃ received, attempt.identify = .ok received ∧ ∀ t, timing.identify = some t →
        1 + identityPushAwaits ops.maxPacketSize conn.peerId received < t := by
  obtain ⟨w₁, hw₁, hentry, hstate, hinner⟩ := handshake_started h hr
  have hothers₁ : OtherTasks conn.id (Async.under w₁ timing.identify).others := hw₁ ▸ hothers
  have hnone : w'.state.streamDispatcher.unauthStreams.get conn.id = none ↔
      ¬ w'.state.streamDispatcher.HasEntry conn.id := by
    rw [RawMutexStreamDispatcher.HasEntry, Option.eq_none_iff_forall_ne_some, not_exists]
  rw [hnone, hstate]
  cases hidentify : attempt.identify with
  | error err =>
    rw [hidentify] at hstate hinner
    -- nobody removes the entry
    have hunopened : (identityRequest ops conn (.error err) timing.now).Passes
        (fun s => s.streamDispatcher.HasEntry conn.id) 1 (· = .error err) :=
      identityRequest_unopened
    have hkept := hunopened.keeps _ (hothers₁.safe hentry)
    simp [hkept.state]
  | ok received =>
    rw [hidentify] at hinner
    rcases identityRequest_residue hothers₁ hentry with ⟨v, hv, hdropped⟩ | ⟨hlate, hgone⟩
    · -- the timer of the handshake has dropped the request
      obtain ⟨t, ht, hle⟩ := Async.under_expired hdropped.follows.deadline hdropped.expired
        (hinner v hv)
      rw [hv]
      refine ⟨fun hn => absurd hdropped.follows.state hn, ?_⟩
      rintro ⟨received', he, hall⟩
      cases he
      have hearly := hdropped.early
      have hlt := hall t ht
      simp only [Async.under] at hearly
      omega
    · refine ⟨fun _ => ⟨received, rfl, fun t ht => ?_⟩, fun _ => hgone.state⟩
      obtain ⟨d, hd, hle⟩ := Async.under_deadline (w := w₁) ht
      have hlt := hlate d hd
      simp only [Async.under] at hlt
      omega

end

section Sample

attribute [local instance] Libp2p.ed25519

/-- A connection to the node with key `keyB`. -/
def connB : P2pConn := ⟨"b", keyB, []⟩

/-- Another task dispatches a stream of the connection at every await point. -/
def dispatchEcho (_ : ℕ) (s : SwitchState) : SwitchState :=
  match s.streamDispatcher.dispatch ⟨"s", "b", keyB, []⟩ "/echo" with
  | .ok raw => { s with streamDispatcher := raw }
  | .error _ => s

theorem otherTasks_dispatchEcho : OtherTasks connB.id dispatchEcho := by
  intro n s
  refine ⟨[], [], ?_⟩
  unfold dispatchEcho
  split
  · next raw hd => exact .single ⟨_, .dispatch _ _ hd, by simp, by simp, by simp⟩
  · exact .refl

/-- The surroundings of a handshake on a new switch. -/
def busyWorld : World SwitchState :=
  ⟨0, none, dispatchEcho, ⟨.default, ⟨5, []⟩, .default, .new 20, fun _ => ⟨false, 0⟩, []⟩⟩

/-- The node answers, and closes the stream for its identify message without sending one. -/
def closesStream : Attempt := ⟨.ok connB, .ok []⟩

/-- The node answers, but does not open the stream for its identify message. -/
def refusesStream : Attempt := ⟨.ok connB, .error (.negotiationError "protocol not supported")⟩

/-- The surroundings after a handshake with the node. -/
def afterHandshake (attempt : Attempt) : World SwitchState :=
  (handshake ⟨4194304, []⟩ connB attempt (.prompt 0) busyWorld).2

theorem handshake_residue_iff_closed :
    OtherTasks connB.id dispatchEcho ∧
      (afterHandshake closesStream).state.streamDispatcher.unauthStreams.get connB.id = none := by
  have hfails : handshake ⟨4194304, []⟩ connB closesStream (.prompt 0) busyWorld =
      (.error (.error (.unsignedVarint "unexpected end of file")), afterHandshake closesStream) :=
    rfl
  exact ⟨otherTasks_dispatchEcho,
    (handshake_residue_iff otherTasks_dispatchEcho hfails True.intro).2 ⟨[], rfl, nofun⟩⟩

/-- The stream for the identify message is refused: the handshake fails, and leaves the entry with
the streams that have been cached in it. -/
theorem residue_left :
    ¬ ∀ (ops : SwitchOptions) (conn : P2pConn) (attempt : Attempt) (timing : Timing)
      (w w' : World SwitchState) (r : Except (Stop Error Panic) Unit),
      OtherTasks conn.id w.others → handshake ops conn attempt timing w = (r, w') → Returned r →
      w'.state.streamDispatcher.unauthStreams.get conn.id = none := by
  intro hall
  have hnone := hall ⟨4194304, []⟩ connB refusesStream (.prompt 0) busyWorld
    (afterHandshake refusesStream) (.error (.error (.negotiationError "protocol not supported")))
    otherTasks_dispatchEcho rfl True.intro
  have hleft : (afterHandshake refusesStream).state.streamDispatcher.unauthStreams.get "b" =
    some [(⟨"s", "b", keyB, []⟩, "/echo")] := by decide
  rw [show connB.id = "b" from rfl, hleft] at hnone
  cases hnone

end Sample

end XStack
