import XStack.Circuit.Reservation
import XStack.Rpc.Framing

/-!
# Asking for a reservation

`circuit_v2_hop_reserve` sends a `RESERVE` message to a relay and reads its answer.  Every field of
the answer is optional, and the expiration time is any 64-bit number of seconds; it is added to the
Unix epoch, and this panics if the sum is not a `SystemTime` (`reserve_out_of_time`).

## Main definitions

* `HopMessage` : the messages, `circuitV2HopReserve` : the call.
* `HopMessage.Grants` : the answer grants a reservation.
* `HopMessage.Endless` : its expiration time cannot be represented.

## Main results

* `circuit_v2_hop_reserve_total_iff` : when the call returns what it should.
-/

namespace XStack

/-! ### The messages -/

/-- A `circuit::Reservation` message; nobody reads the voucher. -/
structure ReservationMessage where
  /-- `expire`, in seconds since the Unix epoch. -/
  expire : Option UInt64
  /-- `addrs`. -/
  addrs : List (List UInt8)
  deriving DecidableEq

/-- A `circuit::Limit` message. -/
structure LimitMessage where
  /-- `duration`, in seconds. -/
  duration : Option UInt32
  /-- `data`, in bytes. -/
  data : Option UInt64
  deriving DecidableEq

/-- A `circuit::HopMessage`; the fields that a reservation needs. -/
structure HopMessage where
  /-- `type_`, the number of the enumeration value. -/
  type : Option ℤ
  /-- `reservation`. -/
  reservation : Option ReservationMessage
  /-- `limit`. -/
  limit : Option LimitMessage
  /-- `status`, the number of the enumeration value. -/
  status : Option ℤ
  deriving DecidableEq

namespace HopMessage

/-- `hop_message::Type::RESERVE`. -/
def reserveType : ℤ := 0

/-- `hop_message::Type::STATUS`. -/
def statusType : ℤ := 2

/-- The request. -/
def reserve : HopMessage := ⟨some reserveType, none, none, none⟩

end HopMessage

namespace Status

/-- `Status::OK`. -/
def ok : ℤ := 100

/-- A status as it is printed: its name, or its number if it is unknown. -/
def debug (status : ℤ) : String :=
  if status = 0 then "UNUSED"
  else if status = 100 then "OK"
  else if status = 200 then "RESERVATION_REFUSED"
  else if status = 201 then "RESOURCE_LIMIT_EXCEEDED"
  else if status = 202 then "PERMISSION_DENIED"
  else if status = 203 then "CONNECTION_FAILED"
  else if status = 204 then "NO_RESERVATION"
  else if status = 400 then "MALFORMED_MESSAGE"
  else if status = 401 then "UNEXPECTED_MESSAGE"
  else toString status

end Status

/-! ### The call -/

/-- The errors of the circuit crate. -/
inductive CircuitError where
  | hotReject (msg : String)
  | xstackError (err : Error)
  | multiaddr (err : Error)
  | reservationExpire
  deriving DecidableEq

/-- `Limit`. -/
structure Limit where
  /-- The maximum duration of a relayed connection. -/
  duration : Option Duration
  /-- The maximum number of bytes in each direction. -/
  data : Option UInt64
  deriving DecidableEq

/-- `Limit::from`. -/
def Limit.ofMessage (limit : LimitMessage) : Limit where
  duration := limit.duration.map fun dur => .fromSecs dur.toUInt64
  data := limit.data

/-- A granted reservation, with the limits that the relay applies. -/
structure LimitedReservation extends Reservation where
  /-- There are no limits if it is missing. -/
  limit : Option Limit
  deriving DecidableEq

/-- The code of the circuit crate that works on an answer. -/
abbrev CircuitM := ExceptT CircuitError (Except Panic)

/-- The checks of an answer that are common to the requests to a relay. -/
def HopMessage.checkStatus (message : HopMessage) : CircuitM Unit :=
  if message.type ≠ some HopMessage.statusType then
    throw (.hotReject "Invalid response, expect status")
  else
    match message.status with
    | some status =>
      if Status.ok ≠ status then throw (.hotReject (Status.debug status)) else pure ()
    | none => throw (.hotReject "status field is null")

section

variable [Libp2p]

/-- `circuit_v2_hop_reserve` from the answer of the relay on. -/
def HopMessage.reserved (message : HopMessage) : CircuitM LimitedReservation := do
  message.checkStatus
  match message.reservation with
  | some reservation =>
    let expire ← match reservation.expire with
      | some value => liftM (SystemTime.unixEpoch.add (.fromSecs value))
      | none => throw .reservationExpire
    let addrs ← MonadExcept.ofExcept
      ((reservation.addrs.mapM Libp2p.decodeMultiaddr).mapError .multiaddr)
    return ⟨⟨expire, addrs⟩, message.limit.map Limit.ofMessage⟩
  | none => throw (.hotReject "reservation field is null")

/-- `CircuitV2Rpc::circuit_v2_hop_reserve`, on a stream to the relay. -/
def circuitV2HopReserve [UnsignedVarint] [Message HopMessage] (maxRecvLen : UInt64)
    (stream : RpcStream) : CircuitM LimitedReservation :=
  match XStackRpc.xstackCall HopMessage.reserve maxRecvLen stream with
  | .ok message _ => message.reserved
  | .error err _ => throw (.xstackError err)

/-! ### What it should return -/

namespace HopMessage

/-- The relay says that all is well. -/
structure Accepted (message : HopMessage) : Prop where
  type : message.type = some statusType
  status : message.status = some Status.ok

/-- The answer grants the reservation `r`. -/
structure Grants (message : HopMessage) (r : LimitedReservation) : Prop extends
    message.Accepted where
  reservation : ∃ reservation value, message.reservation = some reservation ∧
    reservation.expire = some value ∧ value.toNat < 2 ^ 63 ∧
    r.expire = SystemTime.unixEpoch + Duration.fromSecs value ∧
    reservation.addrs.mapM Libp2p.decodeMultiaddr = .ok r.addrs
  limit : r.limit = message.limit.map Limit.ofMessage

omit [Libp2p] in
/-- The answer grants a reservation beyond the end of time. -/
structure Endless (message : HopMessage) : Prop extends message.Accepted where
  reservation : ∃ reservation value, message.reservation = some reservation ∧
    reservation.expire = some value ∧ 2 ^ 63 ≤ value.toNat

variable {message : HopMessage}

omit [Libp2p] in
theorem checkStatus_accepted (h : message.Accepted) : message.checkStatus = pure () := by
  rw [checkStatus, if_neg (not_not.2 h.type), h.status]
  rfl

omit [Libp2p] in
theorem checkStatus_not_accepted (h : ¬ message.Accepted) :
    ∃ e, message.checkStatus = throw e := by
  unfold checkStatus
  by_cases htype : message.type = some statusType
  · rw [if_neg (not_not.2 htype)]
    rcases hstatus : message.status with _ | status
    · exact ⟨_, rfl⟩
    · have hne : Status.ok ≠ status := fun heq => h ⟨htype, heq ▸ hstatus⟩
      exact ⟨_, if_pos hne⟩
  · exact ⟨_, if_pos htype⟩

omit [Libp2p] in
theorem unixEpoch_add (value : UInt64) :
    SystemTime.unixEpoch.add (.fromSecs value) =
      if value.toNat < 2 ^ 63 then .ok (SystemTime.unixEpoch + Duration.fromSecs value)
      else .error (.expect "overflow when adding duration to instant") := by
  have hsecs : (SystemTime.unixEpoch + Duration.fromSecs value) / 1000000000 = value.toNat := by
    show (0 + (value.toNat * 1000000000 + 0)) / 1000000000 = value.toNat
    omega
  have hbound : value.toNat ≤ 0x7fffffffffffffff ↔ value.toNat < 2 ^ 63 := by omega
  rw [SystemTime.add, hsecs]
  exact if_congr hbound rfl rfl

theorem Grants.unique {r r' : LimitedReservation} (h : message.Grants r) (h' : message.Grants r') :
    r = r' := by
  obtain ⟨reservation, value, hreservation, hvalue, -, hexpire, haddrs⟩ := h.reservation
  obtain ⟨reservation', value', hreservation', hvalue', -, hexpire', haddrs'⟩ := h'.reservation
  cases hreservation.symm.trans hreservation'
  cases hvalue.symm.trans hvalue'
  obtain ⟨⟨expire, addrs⟩, limit⟩ := r
  obtain ⟨⟨expire', addrs'⟩, limit'⟩ := r'
  cases hexpire.trans hexpire'.symm
  cases Except.ok.inj (haddrs.symm.trans haddrs')
  cases h.limit.trans h'.limit.symm
  rfl

theorem Grants.not_endless {r : LimitedReservation} (h : message.Grants r) : ¬ message.Endless := by
  intro hendless
  obtain ⟨_, _, hreservation, hvalue, htime, -⟩ := h.reservation
  obtain ⟨_, _, hreservation', hvalue', hlarge⟩ := hendless.reservation
  cases hreservation.symm.trans hreservation'
  cases hvalue.symm.trans hvalue'
  exact absurd htime (Nat.not_lt.2 hlarge)

/-- What an answer that is accepted comes to, field by field. -/
theorem reserved_accepted (h : message.Accepted) : message.reserved.run =
    match message.reservation with
    | none => .ok (.error (.hotReject "reservation field is null"))
    | some ⟨none, _⟩ => .ok (.error .reservationExpire)
    | some ⟨some value, addrs⟩ =>
      if value.toNat < 2 ^ 63 then
        match addrs.mapM Libp2p.decodeMultiaddr with
        | .ok addrs => .ok (.ok ⟨⟨SystemTime.unixEpoch + Duration.fromSecs value, addrs⟩,
            message.limit.map Limit.ofMessage⟩)
        | .error err => .ok (.error (.multiaddr err))
      else .error (.expect "overflow when adding duration to instant") := by
  rw [reserved, checkStatus_accepted h, pure_bind]
  rcases message.reservation with _ | ⟨_ | value, addrs⟩
  · rfl
  · rfl
  · simp only [unixEpoch_add]
    split_ifs
    · rcases addrs.mapM Libp2p.decodeMultiaddr with err | addrs <;> rfl
    · rfl

/-- **What becomes of an answer**: it is granted, or refused, or its time cannot be represented. -/
theorem reserved_cases (message : HopMessage) :
    (∃ r, message.Grants r ∧ message.reserved.run = .ok (.ok r)) ∨
    ((∀ r, ¬ message.Grants r) ∧ ¬ message.Endless ∧ ∃ e, message.reserved.run = .ok (.error e)) ∨
    (message.Endless ∧ ∃ reason, message.reserved.run = .error reason) := by
  by_cases haccepted : message.Accepted
  · rw [reserved_accepted haccepted]
    rcases hreservation : message.reservation with _ | ⟨_ | value, addrs⟩
    · refine .inr (.inl ⟨fun r h => ?_, fun h => ?_, _, rfl⟩) <;>
      · obtain ⟨_, _, hsome, -⟩ := h.reservation
        cases hreservation.symm.trans hsome
    · refine .inr (.inl ⟨fun r h => ?_, fun h => ?_, _, rfl⟩) <;>
      · obtain ⟨_, _, hsome, hvalue, -⟩ := h.reservation
        cases hreservation.symm.trans hsome
        cases hvalue
    · dsimp only
      split_ifs with htime
      · rcases haddrs : addrs.mapM Libp2p.decodeMultiaddr with err | addrs'
        · refine .inr (.inl ⟨fun r h => ?_, fun h => ?_, _, rfl⟩)
          · obtain ⟨_, _, hsome, -, -, -, hdecode⟩ := h.reservation
            cases hreservation.symm.trans hsome
            cases haddrs.symm.trans hdecode
          · obtain ⟨_, _, hsome, hvalue, hlarge⟩ := h.reservation
            cases hreservation.symm.trans hsome
            cases hvalue
            exact absurd htime (Nat.not_lt.2 hlarge)
        · exact .inl ⟨_, ⟨haccepted, ⟨_, value, hreservation, rfl, htime, rfl, haddrs⟩, rfl⟩, rfl⟩
      · exact .inr (.inr ⟨⟨haccepted, _, value, hreservation, rfl, Nat.not_lt.1 htime⟩, _, rfl⟩)
  · obtain ⟨e, he⟩ := checkStatus_not_accepted haccepted
    refine .inr (.inl ⟨fun r h => haccepted h.toAccepted, fun h => haccepted h.toAccepted, e, ?_⟩)
    rw [reserved, he]
    rfl

end HopMessage

variable [UnsignedVarint] [Message HopMessage] {maxRecvLen : UInt64} {stream stream' : RpcStream}
  {message : HopMessage}

theorem circuitV2HopReserve_eq
    (hcall : XStackRpc.xstackCall HopMessage.reserve maxRecvLen stream = .ok message stream') :
    circuitV2HopReserve maxRecvLen stream = message.reserved := by
  rw [circuitV2HopReserve, hcall]

/-- **When a request for a reservation returns what it should**: for every answer, the call returns
without a panic, with a reservation if and only if the answer grants it, unless the answer grants
one whose expiration time cannot be represented. -/
theorem circuit_v2_hop_reserve_total_iff
    (hcall : XStackRpc.xstackCall HopMessage.reserve maxRecvLen stream = .ok message stream') :
    ((∃ result, (circuitV2HopReserve maxRecvLen stream).run = .ok result) ∧
      ∀ r, (circuitV2HopReserve maxRecvLen stream).run = .ok (.ok r) ↔ message.Grants r) ↔
    ¬ message.Endless := by
  rw [circuitV2HopReserve_eq hcall]
  rcases message.reserved_cases with ⟨r, hgrants, hreserved⟩ | ⟨hnot, hendless, e, hreserved⟩ |
    ⟨hendless, reason, hreserved⟩ <;> rw [hreserved]
  · refine iff_of_true ⟨⟨_, rfl⟩, fun r' => ⟨fun h => ?_, fun h => ?_⟩⟩ hgrants.not_endless
    · cases h
      exact hgrants
    · rw [hgrants.unique h]
  · refine iff_of_true ⟨⟨_, rfl⟩, fun r => ?_⟩ hendless
    exact iff_of_false (fun h => by cases h) (hnot r)
  · refine iff_of_false (fun h => ?_) (not_not.2 hendless)
    obtain ⟨result, hresult⟩ := h.1
    cases hresult

end

section Sample

/-- An encoding of the request, and of two answers. -/
@[reducible] def hopMessage : Message HopMessage where
  writeToBytes
    | ⟨some 0, none, none, none⟩ => .ok [0x08, 0x00]
    | _ => .error (.protobufError "not modelled")
  parseFromBytes
    | [0x08, 0x02, 0x1a, 0x02, 0x08, 0x05, 0x28, 0x64] =>
      .ok ⟨some 2, some ⟨some 5, []⟩, none, some 100⟩
    | [0x08, 0x02, 0x1a, 0x0b, 0x08, 0xff, 0xff, 0xff, 0xff, 0xff, 0xff, 0xff, 0xff, 0xff, 0x01,
        0x28, 0x64] =>
      .ok ⟨some 2, some ⟨some 0xffffffffffffffff, []⟩, none, some 100⟩
    | _ => .error (.protobufError "not modelled")

attribute [local instance] XStackRpc.leb128 hopMessage Libp2p.ed25519

/-- A relay that answers with these bytes. -/
def hopAnswer (bytes : List UInt8) (hne : bytes ≠ []) : RpcStream :=
  ⟨⟨[⟨bytes, hne⟩], none⟩, [], none, []⟩

/-- The answer of a relay whose reservation expires five seconds after the epoch. -/
def earlyAnswer : RpcStream :=
  hopAnswer [0x08, 0x08, 0x02, 0x1a, 0x02, 0x08, 0x05, 0x28, 0x64] (List.cons_ne_nil _ _)

/-- The answer of a relay whose reservation expires at the largest number of seconds. -/
def endlessAnswer : RpcStream :=
  hopAnswer [0x11, 0x08, 0x02, 0x1a, 0x0b, 0x08, 0xff, 0xff, 0xff, 0xff, 0xff, 0xff, 0xff, 0xff,
    0xff, 0x01, 0x28, 0x64] (List.cons_ne_nil _ _)

theorem circuit_v2_hop_reserve_total_iff_early :
    ((∃ result, (circuitV2HopReserve 4096 earlyAnswer).run = .ok result) ∧
      ∀ r, (circuitV2HopReserve 4096 earlyAnswer).run = .ok (.ok r) ↔
        HopMessage.Grants ⟨some 2, some ⟨some 5, []⟩, none, some 100⟩ r) ↔
    ¬ HopMessage.Endless ⟨some 2, some ⟨some 5, []⟩, none, some 100⟩ :=
  circuit_v2_hop_reserve_total_iff rfl

/-- A relay that grants a reservation for ever makes its client panic. -/
theorem reserve_out_of_time :
    ¬ ∀ (maxRecvLen : UInt64) (stream stream' : RpcStream) (message : HopMessage),
      XStackRpc.xstackCall HopMessage.reserve maxRecvLen stream = .ok message stream' →
      (∃ result, (circuitV2HopReserve maxRecvLen stream).run = .ok result) ∧
        ∀ r, (circuitV2HopReserve maxRecvLen stream).run = .ok (.ok r) ↔ message.Grants r := by
  intro hall
  obtain ⟨result, hresult⟩ := (hall 4096 endlessAnswer _ _ rfl).1
  have hrun : circuitV2HopReserve 4096 endlessAnswer = _ := circuitV2HopReserve_eq rfl
  rw [hrun, HopMessage.reserved_accepted ⟨rfl, rfl⟩] at hresult
  have hlarge : ¬ (0xffffffffffffffff : UInt64).toNat < 2 ^ 63 := by decide
  simp only [if_neg hlarge] at hresult
  cases hresult

end Sample

end XStack
