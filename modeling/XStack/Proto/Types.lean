import XStack.Data.Wire
import XStack.Proto.Circuit
import XStack.Proto.Kad
import XStack.Proto.Switch

/-!
# All message types

Every message type of the stack is described by its table of fields, so what is known of such tables
holds of all of them.

## Main results

* `protobuf_round_trip` : a message that is written is parsed, and has the size that was computed.
* `protobuf_any_order` : also with its fields in another order, and with fields it does not have.
-/

namespace XStack

namespace Proto

open Protobuf

section

variable [Runtime Error]

/-- The message types of the stack. -/
def types : List (Σ M : Type, Codec Error M) := [
  ⟨_, Circuit.Voucher.codec⟩,
  ⟨_, Circuit.HopMessage.codec⟩,
  ⟨_, Circuit.StopMessage.codec⟩,
  ⟨_, Circuit.Peer.codec⟩,
  ⟨_, Circuit.Reservation.codec⟩,
  ⟨_, Circuit.Limit.codec⟩,
  ⟨_, Circuit.HolePunch.codec⟩,
  ⟨_, Identity.codec⟩,
  ⟨_, Autonat.Message.codec⟩,
  ⟨_, Autonat.PeerInfo.codec⟩,
  ⟨_, Autonat.Dial.codec⟩,
  ⟨_, Autonat.DialResponse.codec⟩,
  ⟨_, Kad.Record.codec⟩,
  ⟨_, Kad.Message.codec⟩,
  ⟨_, Kad.Peer.codec⟩]

variable [Runtime.Lawful Error]

theorem types_lawful : types.Forall fun t => t.2.Lawful :=
  ⟨Circuit.Voucher.codec_lawful, Circuit.HopMessage.codec_lawful, Circuit.StopMessage.codec_lawful,
    Circuit.Peer.codec_lawful, Circuit.Reservation.codec_lawful, Circuit.Limit.codec_lawful,
    Circuit.HolePunch.codec_lawful, Identity.codec_lawful, Autonat.Message.codec_lawful,
    Autonat.PeerInfo.codec_lawful, Autonat.Dial.codec_lawful, Autonat.DialResponse.codec_lawful,
    Kad.Record.codec_lawful, Kad.Message.codec_lawful, Kad.Peer.codec_lawful⟩

/-- **Messages survive the wire**: for every message type, a message that is written is parsed, and
the size that is computed for it, on which the length prefixes of messages within messages rest, is
the number of its bytes. -/
theorem protobuf_round_trip {t : Σ M : Type, Codec Error M} (ht : t ∈ types) (m : t.1)
    (bytes : List UInt8) (hsize : t.2.computeSize m ≤ maxLen)
    (h : t.2.writeToBytes m = .ok bytes) :
    t.2.parseFromBytes bytes = .ok m ∧ bytes.length = t.2.computeSize m :=
  (List.forall_iff_forall_mem.1 types_lawful t ht).parse_write hsize h

/-- **The order of the fields does not matter**: for every message type, a message is parsed from
its fields in any order in which those with the same tag keep theirs, and with fields that the type
does not have anywhere between them. -/
theorem protobuf_any_order {t : Σ M : Type, Codec Error M} (ht : t ∈ types) (m : t.1)
    (bytes : List UInt8) (hsize : t.2.computeSize m ≤ maxLen)
    (h : t.2.writeToBytes m = .ok bytes) :
    bytes = (t.2.pieces m).flatten ∧
      ∀ pieces, t.2.Reordered (t.2.pieces m) pieces →
        t.2.parseFromBytes pieces.flatten = .ok m := by
  have hlawful : t.2.Lawful := List.forall_iff_forall_mem.1 types_lawful t ht
  rw [Codec.writeToBytes] at h
  split_ifs at h with hinitialized
  cases h
  exact ⟨hlawful.writeTo_eq, fun pieces hre => hlawful.parse_reordered hsize hinitialized hre⟩

end

section Sample

/-- The wire format, with the errors of the stack. -/
@[reducible] def wire : Runtime Error :=
  Wire.runtime (.protobufError "malformed") (.protobufError "not initialized")

theorem wire_lawful : @Runtime.Lawful Error wire := Wire.runtime_lawful _ _

attribute [local instance] wire wire_lawful

/-- A `RESERVE` answer with all its fields. -/
theorem protobuf_round_trip_hop :
    Circuit.HopMessage.codec.parseFromBytes
        [0x08, 0x02, 0x12, 0x07, 0x0a, 0x02, 0x01, 0x02, 0x12, 0x01, 0x03, 0x1a, 0x02, 0x08, 0x05,
          0x22, 0x03, 0x08, 0xac, 0x02, 0x28, 0x64] =
      .ok ⟨some 2, some ⟨some [0x01, 0x02], [[0x03]]⟩, some ⟨some 5, [], none⟩,
        some ⟨some 300, none⟩, some 100⟩ :=
  (protobuf_round_trip (t := ⟨_, Circuit.HopMessage.codec⟩) (.tail _ (.head _))
    ⟨some 2, some ⟨some [0x01, 0x02], [[0x03]]⟩, some ⟨some 5, [], none⟩, some ⟨some 300, none⟩,
      some 100⟩ _ (by decide) rfl).1

/-- A `CONNECT` message whose type comes last, behind a field that it does not have. -/
theorem protobuf_any_order_hole_punch :
    Circuit.HolePunch.codec.parseFromBytes [0x12, 0x01, 0x07, 0x18, 0x05, 0x08, 0x64] =
      .ok ⟨some 100, [[0x07]]⟩ :=
  (protobuf_any_order (t := ⟨_, Circuit.HolePunch.codec⟩)
    (.tail _ (.tail _ (.tail _ (.tail _ (.tail _ (.tail _ (.head _)))))))
    ⟨some 100, [[0x07]]⟩ _ (by decide) rfl).2 [[0x12, 0x01, 0x07], [0x18, 0x05], [0x08, 0x64]]
    (.trans (.swap (l := []) (r := []) (.head _) (.tail _ (.head _)) (by decide)
        (fun _ => ⟨_, rfl⟩) (fun _ => ⟨_, rfl⟩))
      (.insert (l := [[0x12, 0x01, 0x07]]) (r := [[0x08, 0x64]]) (p := [0x18, 0x05])
        fun _ => ⟨0x18, _, rfl, by decide, rfl⟩))

end Sample

end Proto

end XStack
