import XStack.Async.Quiet
import XStack.Switch.Observed
import XStack.Switch.Protocols

/-!
# What an identify message can bring about

Everything in an identify message comes from the peer, so `identityPush` may fail at each of its
fields.  All of this is decoded before the first of its two updates, the observed addresses and the
peer book; a message that is rejected has changed nothing.  Between the two updates other tasks may
run.

## Main definitions

* `Identified.observe`, `Identified.enter` : the two updates.
* `Pushed` : the ways in which `identityPush` ends.
* `Identified.Confined` : a message has changed what it is about, and nothing else.

## Main results

* `identityPush_pushed` : how `identityPush` ends, whatever the other tasks do.
* `identity_push_atomic` : it changes nothing, or it enters the peer that the connection has been
  authenticated for.
-/

namespace XStack

variable [Libp2p] {maxPacketSize : ℕ} {received : List UInt8}

namespace Identified

variable (m : Identified maxPacketSize received)

/-- The addresses under which the peer has seen the switch, without those through a relay. -/
def direct : List Multiaddr := m.observedAddrs.filter fun addr => addr.all (· ≠ .p2pCircuit)

/-- The first update. -/
def observe (s : SwitchState) : SwitchState :=
  { s with mutable := s.mutable.setObservedAddrs m.direct }

/-- What is entered in the peer book. -/
def info (now : SystemTime) : PeerInfo :=
  ⟨m.pubkey.toPeerId, m.raddrs, m.identity.protocols, some now, none⟩

/-- The second update. -/
def enter (now : SystemTime) (s : SwitchState) : SwitchState :=
  { s with peerBook := (s.peerBook.insert (m.info now)).2 }

/-- The message has replaced the entry of its peer, and slid the observed addresses; the entries of
the other peers, and all the rest, are what they were. -/
structure Confined (now : SystemTime) (s s' : SwitchState) : Prop where
  entry : s'.peerBook.get m.pubkey.toPeerId = some (m.info now)
  others : ∀ peerId ≠ m.pubkey.toPeerId, s'.peerBook.get peerId = s.peerBook.get peerId
  observed : s'.mutable.observedAddrs <:+ s.mutable.observedAddrs ++ m.direct
  direct : ∀ addr ∈ m.direct, Protocol.p2pCircuit ∉ addr
  rest : s' = { s with
    mutable := { s.mutable with observedAddrs := s'.mutable.observedAddrs }
    peerBook := s'.peerBook }

theorem mem_direct {addr : Multiaddr} :
    addr ∈ m.direct ↔ addr ∈ m.observedAddrs ∧ Protocol.p2pCircuit ∉ addr := by
  have hall : (addr.all (· ≠ .p2pCircuit)) = true ↔ Protocol.p2pCircuit ∉ addr := by
    rw [List.all_eq_true]
    constructor
    · intro h hmem
      simpa using h _ hmem
    · intro h protocol hmem
      exact decide_eq_true fun heq => h (heq ▸ hmem)
  rw [direct, List.mem_filter, hall]

theorem record_confined (now : SystemTime) (s : SwitchState) :
    m.Confined now s (m.record now s) where
  entry := (s.peerBook.get_insert (m.info now) _).trans (if_pos rfl)
  others peerId hne := (s.peerBook.get_insert (m.info now) peerId).trans (if_neg hne)
  observed := by
    have hslide := foldl_slide_suffix s.mutable.maxObservedAddrsLen s.mutable.observedAddrs m.direct
    simpa only [record, direct, MutableSwitch.setObservedAddrs_eq] using hslide
  direct _ hmem := (m.mem_direct.1 hmem).2
  rest := by simp only [record, MutableSwitch.setObservedAddrs_eq]

end Identified

/-- How `identityPush` ends.  If it fails, the state is what the other tasks have made of it; if it
succeeds, they may have run before the first update and before the second one. -/
inductive Pushed (maxPacketSize : ℕ) (connPeerId : PeerId) (received : List UInt8)
    (now : SystemTime) (w : World SwitchState) :
    Except (Stop Error Panic) Unit × World SwitchState → Prop where
  | failed (e : Error) (k : ℕ) :
    Pushed maxPacketSize connPeerId received now w (.error (.error e), w.wait k)
  | recorded (m : Identified maxPacketSize received) (hpeer : m.pubkey.toPeerId = connPeerId)
      (k : ℕ) :
    Pushed maxPacketSize connPeerId received now w
      (.ok (), (((w.wait k).update m.observe).wait 1).update (m.enter now))
  | dropped (w' : World SwitchState) (hdeadline : w.deadline ≠ none) :
    Pushed maxPacketSize connPeerId received now w (.error .cancelled, w')

variable {ops : SwitchOptions} {connPeerId : PeerId} {now : SystemTime}

/-- Reading the message changes nothing. -/
theorem xstackRecvIdentity_quiet : (xstackRecvIdentity received maxPacketSize).Quiet
    fun identity => ∃ bodyLen rest, Libp2p.readUsize received = .ok (bodyLen, rest) ∧
      bodyLen ≤ maxPacketSize ∧ bodyLen ≤ rest.length ∧
      Libp2p.parseIdentity (rest.take bodyLen) = .ok identity := by
  refine Async.Quiet.await.bind fun _ _ => ?_
  refine (Async.Quiet.ofExcept fun _ h => h).bind fun ⟨bodyLen, rest⟩ hlen => ?_
  simp only
  split_ifs with hfits
  · exact .fail _
  refine Async.Quiet.await.bind fun _ _ => ?_
  refine (Async.Quiet.ofExcept fun _ h => h).bind fun buf hbuf => ?_
  obtain ⟨hcomplete, rfl⟩ := readExact_ok_iff.1 hbuf
  exact .ofExcept fun identity hparse =>
    ⟨bodyLen, rest, hlen, Nat.not_lt.1 hfits, hcomplete, hparse⟩

/-- `identity_push` decodes the whole message before it changes anything. -/
theorem identityPush_pushed (w : World SwitchState) :
    Pushed ops.maxPacketSize connPeerId received now w
      (identityPush ops connPeerId received now w) := by
  let R := Pushed ops.maxPacketSize connPeerId received now w
  have herror : ∀ (e : Error) k, R (.error (.error e), w.wait k) := .failed
  have hdropped : ∀ k, w.deadline ≠ none → R (.error .cancelled, w.wait k) :=
    fun k => .dropped (w.wait k)
  change R (identityPush ops connPeerId received now (w.wait 0))
  refine xstackRecvIdentity_quiet.run herror hdropped fun identity k hrecv => ?_
  obtain ⟨bodyLen, rest, hlen, hfits, hcomplete, hparse⟩ := hrecv
  refine (Async.Quiet.ofExcept fun _ h => h).run herror hdropped fun pubkey k hkey => ?_
  refine Async.Quiet.run_guard (herror _ k) fun hpeer => ?_
  refine (Async.Quiet.ofExcept fun _ h => h).run herror hdropped fun raddrs k hraddrs => ?_
  refine (Async.Quiet.ofExcept fun _ h => h).run herror hdropped fun observedAddrs k hobserved => ?_
  let m : Identified ops.maxPacketSize received := ⟨bodyLen, rest, identity, pubkey, raddrs,
    observedAddrs, hlen, hfits, hcomplete, hparse, hkey, hraddrs, hobserved⟩
  have hlate : ∀ {w' : World SwitchState}, w'.deadline = w.deadline → w'.deadline ≠ none →
      R (.error .cancelled, w') := fun heq hne => .dropped _ (heq ▸ hne)
  -- the two updates, each behind a mutex
  refine Async.lock_run (h := m.observe) (fun _ => rfl) (hlate (World.deadline_wait k w)) ?_
  refine Async.lock_run (h := m.enter now) (fun _ => rfl) (hlate (World.deadline_wait k w)) ?_
  rw [World.wait_wait]
  exact .recorded m (not_not.1 hpeer).symm (k + 1)

/-- **A push is atomic and confined to its sender**: with nobody else at the switch, for every
message, the protocol fails and changes nothing, or succeeds with a message whose key has the peer
id of the connection, and changes what this message is about.  Whatever other tasks do meanwhile, a
failing push contributes nothing to the state, and a successful one these two updates. -/
theorem identity_push_atomic (ops : SwitchOptions) (connPeerId : PeerId) (received : List UInt8)
    (now : SystemTime) :
    (∀ n s, (∃ e n', identityPush ops connPeerId received now (.alone n s) =
          (.error (.error e), .alone n' s)) ∨
        ∃ (m : Identified ops.maxPacketSize received) (n' : ℕ) (s' : SwitchState),
          identityPush ops connPeerId received now (.alone n s) = (.ok (), .alone n' s') ∧
          m.pubkey.toPeerId = connPeerId ∧ m.Confined now s s') ∧
      ∀ w, Pushed ops.maxPacketSize connPeerId received now w
        (identityPush ops connPeerId received now w) := by
  refine ⟨fun n s => ?_, identityPush_pushed⟩
  have hpushed : Pushed ops.maxPacketSize connPeerId received now (.alone n s)
    (identityPush ops connPeerId received now (.alone n s)) := identityPush_pushed _
  generalize identityPush ops connPeerId received now (.alone n s) = result at hpushed
  cases hpushed with
  | failed e k =>
    rw [World.wait_alone]
    exact .inl ⟨e, n + k, rfl⟩
  | recorded m hpeer k =>
    rw [World.wait_alone]
    exact .inr ⟨m, n + k + 1, _, rfl, hpeer, m.record_confined now s⟩
  | dropped w' hdeadline => exact absurd rfl hdeadline

end XStack
