import XStack.Data.HashMap
import XStack.Event.Basic
import XStack.Lts.Basic

/-!
# The autonat client

A switch asks its peers to dial it back, to find out if it is behind a NAT.  Every request runs in
a task of its own.  `RawAutoNatClient` counts what comes of them, and the task whose outcome decides
the state passes the verdict to `Switch::set_nat`, after it has released the mutex of the counters.

## Main definitions

* `RawAutoNatClient` : the counters.
* `AutoNatTask`, `AutoNatTask.step` : a run of `autonat_request`.
* `AutoNatLoop` : the loop that starts them.
* `autonatLts` : the tasks of a client.
-/

namespace XStack

/-- What came of a request. -/
inductive DialOutcome where
  /-- The switch has been reached at the address. -/
  | success (addr : Multiaddr)
  /-- It has not been reached. -/
  | failure
  deriving DecidableEq, Repr

/-- `RawAutoNatClient`. -/
structure RawAutoNatClient where
  /-- How often the switch has been reached, for each address. -/
  dialSucc : HashMap Multiaddr ℕ
  /-- How often it has not been reached. -/
  dialFailed : ℕ

namespace RawAutoNatClient

/-- `RawAutoNatClient::default`. -/
def default : RawAutoNatClient := ⟨∅, 0⟩

/-- `RawAutoNatClient::state`. -/
def state (raw : RawAutoNatClient) : AutoNAT :=
  if 2 < (raw.dialSucc.iter.map Prod.snd).sum then .publicNode
  else if 2 < raw.dialFailed then .nat
  else .unknown

/-- `RawAutoNatClient::success`; it returns the states before and after. -/
def success (raw : RawAutoNatClient) (addr : Multiaddr) :
    (AutoNAT × AutoNAT) × RawAutoNatClient :=
  let before := raw.state
  let raw :=
    if before = .unknown then
      match raw.dialSucc.get addr with
      | some counter => { raw with dialSucc := raw.dialSucc.insert addr (counter + 1) }
      | none => { raw with dialSucc := raw.dialSucc.insert addr 1 }
    else raw
  ((before, raw.state), raw)

/-- `RawAutoNatClient::failed`. -/
def failed (raw : RawAutoNatClient) : (AutoNAT × AutoNAT) × RawAutoNatClient :=
  let before := raw.state
  let raw := if before = .unknown then { raw with dialFailed := raw.dialFailed + 1 } else raw
  ((before, raw.state), raw)

/-- What `auto_nat_success` and `auto_nat_failed` do under the mutex. -/
def record (raw : RawAutoNatClient) : DialOutcome → (AutoNAT × AutoNAT) × RawAutoNatClient
  | .success addr => raw.success addr
  | .failure => raw.failed

end RawAutoNatClient

/-- `message::ResponseStatus`. -/
inductive ResponseStatus where
  | ok
  | dialError
  | dialRefused
  | badRequest
  | internalError
  deriving DecidableEq, Repr

/-- `Enum::from_i32`. -/
def ResponseStatus.ofValue : ℤ → Option ResponseStatus
  | 0 => some .ok
  | 100 => some .dialError
  | 101 => some .dialRefused
  | 200 => some .badRequest
  | 300 => some .internalError
  | _ => none

/-- A `message::DialResponse`; the fields that the client reads. -/
structure DialResponse where
  /-- `status`, the number of the enumeration value. -/
  status : Option ℤ
  /-- `addr`. -/
  addr : Option (List UInt8)
  deriving DecidableEq, Repr

/-- `DialResponse::status`: an unknown or missing status is `OK`. -/
def DialResponse.statusOrOk (response : DialResponse) : ResponseStatus :=
  (response.status.bind ResponseStatus.ofValue).getD .ok

/-- What `autonat_request_prv` makes of an answer; without an outcome nothing is recorded, and the
request fails if the answer has no response or its address cannot be decoded. -/
def dialOutcome [Libp2p] : Option DialResponse → Except Error (Option DialOutcome)
  | none => .error .autoNatResponse
  | some response =>
    match response.statusOrOk with
    | .ok =>
      match response.addr with
      | some addr => do
        let addr ← Libp2p.decodeMultiaddr addr
        return some (.success addr)
      | none => return none
    | _ => return some .failure

/-- Where a run of `autonat_request` waits. -/
inductive AutoNatTask where
  /-- For the stream to the peer. -/
  | connecting (peerId : PeerId)
  /-- For the answer of the peer. -/
  | requesting
  /-- For the mutex of the counters. -/
  | reporting (outcome : DialOutcome)
  /-- For the mutex of the switch, in `set_nat`. -/
  | setting (state : AutoNAT)
  /-- For the event to be raised, in `set_nat`. -/
  | raising (state : AutoNAT)
  deriving DecidableEq, Repr

/-- What ends a wait. -/
inductive AutoNatEvent where
  /-- A stream has been opened. -/
  | opened
  /-- The answer of the peer. -/
  | answered (response : Option DialResponse)
  /-- What the task waits for has failed. -/
  | failed
  /-- The outcome is recorded. -/
  | recorded (outcome : DialOutcome)
  /-- `set_nat` sets the state. -/
  | natSet (state : AutoNAT)
  /-- The event has been raised. -/
  | raised
  deriving DecidableEq, Repr

/-- What the tasks share. -/
structure AutoNatShared where
  /-- `AutoNatClient::raw`. -/
  raw : RawAutoNatClient
  /-- `MutableSwitch::nat`. -/
  nat : AutoNAT
  /-- The events raised so far. -/
  events : List Event

/-- `autonat_request`, from one wait to the next; without a next wait it has ended. -/
def AutoNatTask.step [Libp2p] (x : AutoNatShared) :
    AutoNatTask → AutoNatEvent → Option (AutoNatShared × Option AutoNatTask)
  | .connecting _, .opened => some (x, some .requesting)
  | .connecting _, .failed => some (x, none)
  | .requesting, .answered response =>
    match dialOutcome response with
    | .ok (some outcome) => some (x, some (.reporting outcome))
    | _ => some (x, none)
  | .requesting, .failed => some (x, none)
  | .reporting outcome, .recorded outcome' =>
    if outcome' = outcome then
      let ((before, current), raw) := x.raw.record outcome
      some ({ x with raw := raw }, if before ≠ current then some (.setting current) else none)
    else none
  | .setting state, .natSet state' =>
    if state' = state then some ({ x with nat := state }, some (.raising state)) else none
  | .raising state, .raised => some ({ x with events := x.events ++ [.network state] }, none)
  | _, _ => none

/-- Where `auto_nat_client` waits. -/
inductive AutoNatLoop where
  /-- For the next handshake. -/
  | waiting
  /-- For the NAT state of the switch. -/
  | checking (peerId : PeerId)
  /-- For the peer book. -/
  | looking (peerId : PeerId)
  deriving DecidableEq, Repr

/-- A client with its tasks. -/
structure AutoNatClient where
  /-- What the tasks share. -/
  shared : AutoNatShared
  /-- `auto_nat_client`. -/
  loop : AutoNatLoop
  /-- The requests that have not ended. -/
  tasks : List AutoNatTask

/-- What happens to a client. -/
inductive AutoNatOp where
  /-- A handshake with the peer has succeeded. -/
  | handshake (peerId : PeerId)
  /-- The loop reads the NAT state of the switch. -/
  | checked
  /-- The loop has looked the peer up; `supported` if its protocols have the one of autonat. -/
  | looked (supported : Bool)
  /-- The task with this index goes on. -/
  | task (i : ℕ) (event : AutoNatEvent)
  deriving DecidableEq, Repr

namespace AutoNatClient

/-- The steps of the loop and of the requests. -/
def next [Libp2p] (s : AutoNatClient) : AutoNatOp → Option AutoNatClient
  | .handshake peerId =>
    match s.loop with
    | .waiting => some { s with loop := .checking peerId }
    | _ => none
  | .checked =>
    match s.loop with
    | .checking peerId =>
      some { s with loop := if s.shared.nat = .unknown then .looking peerId else .waiting }
    | _ => none
  | .looked supported =>
    match s.loop with
    | .looking peerId =>
      some { s with
        loop := .waiting
        tasks := if supported then s.tasks ++ [.connecting peerId] else s.tasks }
    | _ => none
  | .task i event =>
    match s.tasks[i]? with
    | some task =>
      match task.step s.shared event with
      | some (shared, some task') =>
        some { s with shared := shared, tasks := s.tasks.set i task' }
      | some (shared, none) => some { s with shared := shared, tasks := s.tasks.eraseIdx i }
      | none => none
    | none => none

/-- A client that has just been bound to its switch. -/
def start : AutoNatClient := ⟨⟨.default, .unknown, []⟩, .waiting, []⟩

end AutoNatClient

/-- The runs of a client. -/
def autonatLts [Libp2p] : Lts AutoNatClient AutoNatOp where
  init s := s = .start
  step s op s' := s.next op = some s'

end XStack
