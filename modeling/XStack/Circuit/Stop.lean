import XStack.Circuit.Hop
import XStack.Proto.Types
import XStack.Rpc.Session

/-!
# Relaying a connection

A relay that has been asked to connect somebody to a peer opens a stream to it and asks it with
`circuit_v2_stop_connect`; the peer answers with `circuit_v2_stop_connect_accept`.  Behind these two
messages the stream belongs to the connection, so both sides have to agree on where they end, and
nobody may take the connection for established when the other one does not.

## Main definitions

* `circuitV2StopConnect`, `circuitV2StopConnectAccept` : the two sides.

## Main results

* `stop_session` : they get through with each other.
-/

namespace XStack

open Proto.Circuit (StopMessage)

namespace Proto.Circuit.StopMessage

/-- `stop_message::Type::CONNECT`. -/
def connectType : Int32 := 0

/-- `stop_message::Type::STATUS`. -/
def statusType : Int32 := 1

/-- The request of a relay that connects the peer `id`. -/
def connect (id : PeerId) : StopMessage :=
  ⟨some connectType, some ⟨some id.toBytes, []⟩, none, none⟩

/-- The answer. -/
def accepted : StopMessage := ⟨some statusType, none, none, some (.ofInt Status.ok)⟩

end Proto.Circuit.StopMessage

/-- The errors of `circuit_v2_stop_connect_accept`. -/
inductive StopError where
  | xstackError (err : Error)
  | circuitStop (msg : String)
  deriving DecidableEq

section

variable [Protobuf.Runtime Error] [UnsignedVarint]

/-- The generated code for stop messages. -/
instance : Message StopMessage where
  writeToBytes := StopMessage.codec.writeToBytes
  parseFromBytes := StopMessage.codec.parseFromBytes

/-- `CircuitV2Rpc::circuit_v2_stop_connect`. -/
def circuitV2StopConnect (id : PeerId) (maxRecvLen : UInt64) :
    EStateM CircuitError RpcStream Unit := do
  let message ← (XStackRpc.xstackCall (StopMessage.connect id) maxRecvLen).lift .xstackError
  if message.type ≠ some StopMessage.statusType then
    throw (.hotReject "Invalid response, expect status")
  else
    match message.status with
    | some status =>
      if Int32.ofInt Status.ok ≠ status then throw (.hotReject (Status.debug status.toInt))
      else pure ()
    | none => throw (.hotReject "status field is null")

/-- `CircuitV2Rpc::circuit_v2_stop_connect_accept`. -/
def circuitV2StopConnectAccept (maxRecvLen : UInt64) :
    EStateM StopError RpcStream (Option Limit) := do
  let stopMessage : StopMessage ← (XStackRpc.xstackRecv maxRecvLen).lift .xstackError
  if stopMessage.type ≠ some StopMessage.connectType then throw (.circuitStop "expect CONNECT")
  else
    (XStackRpc.xstackSend StopMessage.accepted).lift .xstackError
    pure (stopMessage.limit.map fun limits => Limit.ofMessage ⟨limits.duration, limits.data⟩)

variable [Protobuf.Runtime.Lawful Error] [UnsignedVarint.Stops] {id : PeerId} {maxRecvLen : UInt64}

/-- The turns of the relay. -/
def stopTurns (id : PeerId) : List Turn :=
  let request := StopMessage.codec.writeTo (.connect id)
  let answer := StopMessage.codec.writeTo .accepted
  [.send (XStackRpc.lenOf request), .send request, .recv (XStackRpc.lenOf answer), .recv answer]

theorem circuitV2StopConnect_follows (hanswer : StopMessage.codec.Fits .accepted maxRecvLen) :
    Follows (circuitV2StopConnect id maxRecvLen) (stopTurns id) () := by
  obtain ⟨hparse, hfits⟩ := hanswer.parse StopMessage.codec_lawful
  have hcall : Follows (XStackRpc.xstackCall (StopMessage.connect id) maxRecvLen) (stopTurns id)
      StopMessage.accepted := XStackRpc.xstackCall_follows rfl hparse hfits
  exact (hcall.lift CircuitError.xstackError).bind .pure

theorem circuitV2StopConnectAccept_follows
    (hrequest : StopMessage.codec.Fits (.connect id) maxRecvLen) :
    Follows (circuitV2StopConnectAccept maxRecvLen) ((stopTurns id).map Turn.dual) none := by
  obtain ⟨hparse, hfits⟩ := hrequest.parse StopMessage.codec_lawful
  have hrecv : Follows (XStackRpc.xstackRecv maxRecvLen : Rpc StopMessage) _ _ :=
    XStackRpc.xstackRecv_follows hparse hfits
  have hsend : Follows (XStackRpc.xstackSend StopMessage.accepted) _ () :=
    XStackRpc.xstackSend_follows rfl
  exact (hrecv.lift StopError.xstackError).bind ((hsend.lift StopError.xstackError).bind .pure)

/-- **A relay and a peer agree on a connection.**  In every run of their exchange, whatever has
arrived so far, both can get through with it, and what comes behind is left to the connection; the
exchange does not go on forever; and if the relay takes the connection for established, whatever
becomes of the stream, then so does the peer. -/
theorem stop_session (id : PeerId) (maxRecvLen maxRecvLen' : UInt64)
    (hrequest : StopMessage.codec.Fits (.connect id) maxRecvLen')
    (hanswer : StopMessage.codec.Fits .accepted maxRecvLen) {h : List Arrival} {s : Wires}
    (hr : (talk (circuitV2StopConnect id maxRecvLen)
      (circuitV2StopConnectAccept maxRecvLen')).Run h s) :
    (talk (circuitV2StopConnect id maxRecvLen) (circuitV2StopConnectAccept maxRecvLen')).Leads
        (fun _ _ => True) (fun s => Returns (circuitV2StopConnect id maxRecvLen) s.toLeft () ∧
          Returns (circuitV2StopConnectAccept maxRecvLen') s.toRight none) s ∧
      h.length ≤ (Turn.received (stopTurns id)).length + (Turn.sent (stopTurns id)).length ∧
      ∀ failure s', circuitV2StopConnect id maxRecvLen (.ending s.toLeft failure) = .ok () s' →
        Returns (circuitV2StopConnectAccept maxRecvLen') s.toRight none := by
  have hleft : Follows (circuitV2StopConnect id maxRecvLen) (stopTurns id) () :=
    circuitV2StopConnect_follows hanswer
  have hright := circuitV2StopConnectAccept_follows hrequest
  obtain ⟨hleads, hlen, -⟩ := session_concludes hleft hright hr
  have hne : StopMessage.codec.writeTo .accepted ≠ [] :=
    hanswer.ne_nil StopMessage.codec_lawful (by simp [StopMessage.accepted, StopMessage.codec])
  exact ⟨hleads, hlen, fun failure s' hok =>
    session_agrees (stopTurns id).dropLast hne hleft hright hr hok⟩

end

section Sample

attribute [local instance] Proto.wire Proto.wire_lawful XStackRpc.leb128 XStackRpc.leb128_stops

/-- The request has arrived in two chunks, and the first byte of the answer. -/
def stopHalf : Wires where
  toLeft := [⟨[0x04], by decide⟩]
  toRight := [⟨[0x07, 0x08, 0x00], by decide⟩, ⟨[0x12, 0x03, 0x0a, 0x01, 0x01], by decide⟩]

theorem stop_session_half :
    (talk (circuitV2StopConnect ⟨[0x01]⟩ 4096) (circuitV2StopConnectAccept 4096)).Leads
      (fun _ _ => True) (fun s => Returns (circuitV2StopConnect ⟨[0x01]⟩ 4096) s.toLeft () ∧
        Returns (circuitV2StopConnectAccept 4096) s.toRight none) stopHalf := by
  have hrequest := (Lts.Run.start (A := talk (circuitV2StopConnect ⟨[0x01]⟩ 4096)
    (circuitV2StopConnectAccept 4096)) rfl).snoc
      (SessionStep.right (c := ⟨[0x07, 0x08, 0x00], by decide⟩) (by decide))
  have hrequest := hrequest.snoc
    (SessionStep.right (c := ⟨[0x12, 0x03, 0x0a, 0x01, 0x01], by decide⟩) (by decide))
  have hanswer := hrequest.snoc (SessionStep.left (c := ⟨[0x04], by decide⟩) (by decide))
  exact (stop_session ⟨[0x01]⟩ 4096 4096 ⟨rfl, by decide, by decide⟩
    ⟨rfl, by decide, by decide⟩ hanswer).1

end Sample

end XStack
