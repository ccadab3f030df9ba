import XStack.Basic
import XStack.Data.Protobuf

/-!
# The messages of the relay protocols

The messages of `circuit.proto` and `DCUtR.proto`, as the protobuf compiler has generated them.  The
value of an enumeration is its number, known or not.

The unknown fields of a message are not kept: nobody reads them, and the messages that are sent have
none.
-/

namespace XStack

namespace Proto

namespace Circuit

open Protobuf

variable [Runtime Error]

/-- `circuit::Voucher`. -/
structure Voucher where
  /-- `relay`. -/
  relay : Option (List UInt8)
  /-- `peer`. -/
  peer : Option (List UInt8)
  /-- `expiration`. -/
  expiration : Option UInt64
  deriving DecidableEq

/-- The code for `circuit::Voucher`. -/
def Voucher.codec : Codec Error Voucher where
  new := ⟨none, none, none⟩
  fields := [
    .optional .bytes 10 1 { get := relay, set := fun v m => { m with relay := v } },
    .optional .bytes 18 2 { get := peer, set := fun v m => { m with peer := v } },
    .optional .uint64 24 3 { get := expiration, set := fun v m => { m with expiration := v } }]

/-- `circuit::Peer`. -/
structure Peer where
  /-- `id`. -/
  id : Option (List UInt8)
  /-- `addrs`. -/
  addrs : List (List UInt8)
  deriving DecidableEq

/-- The code for `circuit::Peer`. -/
def Peer.codec : Codec Error Peer where
  new := ⟨none, []⟩
  fields := [
    .optional .bytes 10 1 { get := Peer.id, set := fun v m => { m with id := v } },
    .repeated .bytes 18 2 { get := addrs, set := fun v m => { m with addrs := v } }]

/-- `circuit::Reservation`. -/
structure Reservation where
  /-- `expire`. -/
  expire : Option UInt64
  /-- `addrs`. -/
  addrs : List (List UInt8)
  /-- `voucher`. -/
  voucher : Option (List UInt8)
  deriving DecidableEq

/-- The code for `circuit::Reservation`. -/
def Reservation.codec : Codec Error Reservation where
  new := ⟨none, [], none⟩
  fields := [
    .optional .uint64 8 1 { get := expire, set := fun v m => { m with expire := v } },
    .repeated .bytes 18 2 { get := addrs, set := fun v m => { m with addrs := v } },
    .optional .bytes 26 3 { get := voucher, set := fun v m => { m with voucher := v } }]

/-- `circuit::Limit`. -/
structure Limit where
  /-- `duration`. -/
  duration : Option UInt32
  /-- `data`. -/
  data : Option UInt64
  deriving DecidableEq

/-- The code for `circuit::Limit`. -/
def Limit.codec : Codec Error Limit where
  new := ⟨none, none⟩
  fields := [
    .optional .uint32 8 1 { get := duration, set := fun v m => { m with duration := v } },
    .optional .uint64 16 2 { get := data, set := fun v m => { m with data := v } }]

/-- `circuit::HopMessage`. -/
structure HopMessage where
  /-- `type_`. -/
  type : Option Int32
  /-- `peer`. -/
  peer : Option Peer
  /-- `reservation`. -/
  reservation : Option Reservation
  /-- `limit`. -/
  limit : Option Limit
  /-- `status`. -/
  status : Option Int32
  deriving DecidableEq

/-- The code for `circuit::HopMessage`. -/
def HopMessage.codec : Codec Error HopMessage where
  new := ⟨none, none, none, none, none⟩
  fields := [
    .optional .enum 8 1 { get := type, set := fun v m => { m with type := v } },
    .message Peer.codec 18 2 { get := peer, set := fun v m => { m with peer := v } },
    .message Reservation.codec 26 3
      { get := reservation, set := fun v m => { m with reservation := v } },
    .message Limit.codec 34 4 { get := limit, set := fun v m => { m with limit := v } },
    .optional .enum 40 5 { get := status, set := fun v m => { m with status := v } }]

/-- `circuit::StopMessage`. -/
structure StopMessage where
  /-- `type_`. -/
  type : Option Int32
  /-- `peer`. -/
  peer : Option Peer
  /-- `limit`. -/
  limit : Option Limit
  /-- `status`. -/
  status : Option Int32
  deriving DecidableEq

/-- The code for `circuit::StopMessage`. -/
def StopMessage.codec : Codec Error StopMessage where
  new := ⟨none, none, none, none⟩
  fields := [
    .optional .enum 8 1 { get := type, set := fun v m => { m with type := v } },
    .message Peer.codec 18 2 { get := peer, set := fun v m => { m with peer := v } },
    .message Limit.codec 26 3 { get := limit, set := fun v m => { m with limit := v } },
    .optional .enum 32 4 { get := status, set := fun v m => { m with status := v } }]

/-- `DCUtR::HolePunch`. -/
structure HolePunch where
  /-- `type_`. -/
  type : Option Int32
  /-- `ObsAddrs`. -/
  obsAddrs : List (List UInt8)
  deriving DecidableEq

/-- The code for `DCUtR::HolePunch`; its type is required. -/
def HolePunch.codec : Codec Error HolePunch where
  new := ⟨none, []⟩
  fields := [
    .optional .enum 8 1 { get := type, set := fun v m => { m with type := v } },
    .repeated .bytes 18 2 { get := obsAddrs, set := fun v m => { m with obsAddrs := v } }]
  initialized m := m.type.isSome

/-! ### The tables describe the messages -/

variable [Runtime.Lawful Error]

theorem Voucher.codec_lawful : Voucher.codec.Lawful where
  fields := ⟨Field.optional_lawful _, Field.optional_lawful _, Field.optional_lawful _⟩
  tags := (by decide : ([10, 18, 24] : List UInt32).Nodup)
  apart := ⟨⟨{}, {}⟩, {}, trivial, trivial⟩
  copies _ := ⟨rfl, rfl, rfl, rfl⟩

theorem Peer.codec_lawful : Peer.codec.Lawful where
  fields := ⟨Field.optional_lawful _, Field.repeated_lawful _⟩
  tags := (by decide : ([10, 18] : List UInt32).Nodup)
  apart := ⟨{}, trivial, trivial⟩
  copies _ := ⟨rfl, rfl, rfl⟩

theorem Reservation.codec_lawful : Reservation.codec.Lawful where
  fields := ⟨Field.optional_lawful _, Field.repeated_lawful _, Field.optional_lawful _⟩
  tags := (by decide : ([8, 18, 26] : List UInt32).Nodup)
  apart := ⟨⟨{}, {}⟩, {}, trivial, trivial⟩
  copies _ := ⟨rfl, rfl, rfl, rfl⟩

theorem Limit.codec_lawful : Limit.codec.Lawful where
  fields := ⟨Field.optional_lawful _, Field.optional_lawful _⟩
  tags := (by decide : ([8, 16] : List UInt32).Nodup)
  apart := ⟨{}, trivial, trivial⟩
  copies _ := ⟨rfl, rfl, rfl⟩

theorem HopMessage.codec_lawful : HopMessage.codec.Lawful where
  fields := ⟨Field.optional_lawful _, Field.message_lawful Peer.codec_lawful _,
    Field.message_lawful Reservation.codec_lawful _, Field.message_lawful Limit.codec_lawful _,
    Field.optional_lawful _⟩
  tags := (by decide : ([8, 18, 26, 34, 40] : List UInt32).Nodup)
  apart := ⟨⟨{}, {}, {}, {}⟩, ⟨{}, {}, {}⟩, ⟨{}, {}⟩, {}, trivial, trivial⟩
  copies _ := ⟨rfl, rfl, rfl, rfl, rfl, rfl⟩

theorem StopMessage.codec_lawful : StopMessage.codec.Lawful where
  fields := ⟨Field.optional_lawful _, Field.message_lawful Peer.codec_lawful _,
    Field.message_lawful Limit.codec_lawful _, Field.optional_lawful _⟩
  tags := (by decide : ([8, 18, 26, 32] : List UInt32).Nodup)
  apart := ⟨⟨{}, {}, {}⟩, ⟨{}, {}⟩, {}, trivial, trivial⟩
  copies _ := ⟨rfl, rfl, rfl, rfl, rfl⟩

theorem HolePunch.codec_lawful : HolePunch.codec.Lawful where
  fields := ⟨Field.optional_lawful _, Field.repeated_lawful _⟩
  tags := (by decide : ([8, 18] : List UInt32).Nodup)
  apart := ⟨{}, trivial, trivial⟩
  copies _ := ⟨rfl, rfl, rfl⟩

end Circuit

end Proto

end XStack
