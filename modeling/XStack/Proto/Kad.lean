import XStack.Basic
import XStack.Data.Protobuf

/-!
# The messages of Kademlia

The messages of `rpc.proto`, as the protobuf compiler has generated them.  Most of their fields are
not written when they have their default values.
-/

namespace XStack

namespace Proto

namespace Kad

open Protobuf

variable [Runtime Error]

/-- `rpc::Record`. -/
structure Record where
  /-- `key`. -/
  key : List UInt8
  /-- `value`. -/
  value : List UInt8
  /-- `timeReceived`. -/
  timeReceived : String
  deriving DecidableEq

/-- The code for `rpc::Record`. -/
def Record.codec : Codec Error Record where
  new := ⟨[], [], ""⟩
  fields := [
    .implicit .bytes 10 1 { get := key, set := fun v m => { m with key := v } },
    .implicit .bytes 18 2 { get := value, set := fun v m => { m with value := v } },
    .implicit .string 42 5 { get := timeReceived, set := fun v m => { m with timeReceived := v } }]

/-- `message::Peer`. -/
structure Peer where
  /-- `id`. -/
  id : List UInt8
  /-- `addrs`. -/
  addrs : List (List UInt8)
  /-- `connection`. -/
  connection : Int32
  deriving DecidableEq

/-- The code for `message::Peer`; the number of `NOT_CONNECTED` is zero. -/
def Peer.codec : Codec Error Peer where
  new := ⟨[], [], 0⟩
  fields := [
    .implicit .bytes 10 1 { get := Peer.id, set := fun v m => { m with id := v } },
    .repeated .bytes 18 2 { get := addrs, set := fun v m => { m with addrs := v } },
    .implicit .enum 24 3 { get := connection, set := fun v m => { m with connection := v } }]

/-- `rpc::Message`. -/
structure Message where
  /-- `type_`. -/
  type : Int32
  /-- `clusterLevelRaw`. -/
  clusterLevelRaw : Int32
  /-- `key`. -/
  key : List UInt8
  /-- `record`. -/
  record : Option Record
  /-- `closerPeers`. -/
  closerPeers : List Peer
  /-- `providerPeers`. -/
  providerPeers : List Peer
  deriving DecidableEq

/-- The code for `rpc::Message`; the number of `PUT_VALUE` is zero. -/
def Message.codec : Codec Error Message where
  new := ⟨0, 0, [], none, [], []⟩
  fields := [
    .implicit .enum 8 1 { get := type, set := fun v m => { m with type := v } },
    .implicit .int32 80 10
      { get := clusterLevelRaw, set := fun v m => { m with clusterLevelRaw := v } },
    .implicit .bytes 18 2 { get := key, set := fun v m => { m with key := v } },
    .message Record.codec 26 3 { get := record, set := fun v m => { m with record := v } },
    .messages Peer.codec 66 8 { get := closerPeers, set := fun v m => { m with closerPeers := v } },
    .messages Peer.codec 74 9
      { get := providerPeers, set := fun v m => { m with providerPeers := v } }]

/-! ### The tables describe the messages -/

variable [Runtime.Lawful Error]

theorem Record.codec_lawful : Record.codec.Lawful where
  fields := ⟨Field.implicit_lawful _, Field.implicit_lawful _, Field.implicit_lawful _⟩
  tags := (by decide : ([10, 18, 42] : List UInt32).Nodup)
  apart := ⟨⟨{}, {}⟩, {}, trivial, trivial⟩
  copies _ := ⟨rfl, rfl, rfl, rfl⟩

theorem Peer.codec_lawful : Peer.codec.Lawful where
  fields := ⟨Field.implicit_lawful _, Field.repeated_lawful _, Field.implicit_lawful _⟩
  tags := (by decide : ([10, 18, 24] : List UInt32).Nodup)
  apart := ⟨⟨{}, {}⟩, {}, trivial, trivial⟩
  copies _ := ⟨rfl, rfl, rfl, rfl⟩

theorem Message.codec_lawful : Message.codec.Lawful where
  fields := ⟨Field.implicit_lawful _, Field.implicit_lawful _, Field.implicit_lawful _,
    Field.message_lawful Record.codec_lawful _, Field.messages_lawful Peer.codec_lawful _,
    Field.messages_lawful Peer.codec_lawful _⟩
  tags := (by decide : ([8, 80, 18, 26, 66, 74] : List UInt32).Nodup)
  apart := ⟨⟨{}, {}, {}, {}, {}⟩, ⟨{}, {}, {}, {}⟩, ⟨{}, {}, {}⟩, ⟨{}, {}⟩, {}, trivial, trivial⟩
  copies _ := ⟨rfl, rfl, rfl, rfl, rfl, rfl, rfl⟩

end Kad

end Proto

end XStack
