import XStack.Basic
import XStack.Data.Protobuf

/-!
# The messages of the identify and the AutoNAT protocol

The messages of `identity.proto` and `autonat.proto`, as the protobuf compiler has generated them.
The fields of an identify message are written in the order of their declaration, which is not the
order of their numbers.
-/

namespace XStack

namespace Proto

open Protobuf

variable [Runtime Error]

/-- `identity::Identity`. -/
structure Identity where
  /-- `protocolVersion`. -/
  protocolVersion : Option String
  /-- `agentVersion`. -/
  agentVersion : Option String
  /-- `publicKey`. -/
  publicKey : Option (List UInt8)
  /-- `listenAddrs`. -/
  listenAddrs : List (List UInt8)
  /-- `observedAddr`. -/
  observedAddr : Option (List UInt8)
  /-- `protocols`. -/
  protocols : List String
  /-- `signedPeerRecord`. -/
  signedPeerRecord : Option (List UInt8)
  deriving DecidableEq

namespace Identity

/-- The code for `identity::Identity`. -/
def codec : Codec Error Identity where
  new := ⟨none, none, none, [], none, [], none⟩
  fields := [
    .optional .string 42 5
      { get := protocolVersion, set := fun v m => { m with protocolVersion := v } },
    .optional .string 50 6 { get := agentVersion, set := fun v m => { m with agentVersion := v } },
    .optional .bytes 10 1 { get := publicKey, set := fun v m => { m with publicKey := v } },
    .repeated .bytes 18 2 { get := listenAddrs, set := fun v m => { m with listenAddrs := v } },
    .optional .bytes 34 4 { get := observedAddr, set := fun v m => { m with observedAddr := v } },
    .repeated .string 26 3 { get := protocols, set := fun v m => { m with protocols := v } },
    .optional .bytes 66 8
      { get := signedPeerRecord, set := fun v m => { m with signedPeerRecord := v } }]

end Identity

namespace Autonat

/-- `message::PeerInfo`. -/
structure PeerInfo where
  /-- `id`. -/
  id : Option (List UInt8)
  /-- `addrs`. -/
  addrs : List (List UInt8)
  deriving DecidableEq

/-- The code for `message::PeerInfo`. -/
def PeerInfo.codec : Codec Error PeerInfo where
  new := ⟨none, []⟩
  fields := [
    .optional .bytes 10 1 { get := PeerInfo.id, set := fun v m => { m with id := v } },
    .repeated .bytes 18 2 { get := addrs, set := fun v m => { m with addrs := v } }]

/-- `message::Dial`. -/
structure Dial where
  /-- `peer`. -/
  peer : Option PeerInfo
  deriving DecidableEq

/-- The code for `message::Dial`. -/
def Dial.codec : Codec Error Dial where
  new := ⟨none⟩
  fields := [.message PeerInfo.codec 10 1 { get := peer, set := fun v m => { m with peer := v } }]

/-- `message::DialResponse`. -/
structure DialResponse where
  /-- `status`. -/
  status : Option Int32
  /-- `statusText`. -/
  statusText : Option String
  /-- `addr`. -/
  addr : Option (List UInt8)
  deriving DecidableEq

/-- The code for `message::DialResponse`. -/
def DialResponse.codec : Codec Error DialResponse where
  new := ⟨none, none, none⟩
  fields := [
    .optional .enum 8 1 { get := status, set := fun v m => { m with status := v } },
    .optional .string 18 2 { get := statusText, set := fun v m => { m with statusText := v } },
    .optional .bytes 26 3 { get := addr, set := fun v m => { m with addr := v } }]

/-- `autonat::Message`. -/
structure Message where
  /-- `type_`. -/
  type : Option Int32
  /-- `dial`. -/
  dial : Option Dial
  /-- `dialResponse`. -/
  dialResponse : Option DialResponse
  deriving DecidableEq

/-- The code for `autonat::Message`. -/
def Message.codec : Codec Error Message where
  new := ⟨none, none, none⟩
  fields := [
    .optional .enum 8 1 { get := type, set := fun v m => { m with type := v } },
    .message Dial.codec 18 2 { get := dial, set := fun v m => { m with dial := v } },
    .message DialResponse.codec 26 3
      { get := dialResponse, set := fun v m => { m with dialResponse := v } }]

end Autonat

/-! ### The tables describe the messages -/

variable [Runtime.Lawful Error]

theorem Identity.codec_lawful : Identity.codec.Lawful where
  fields := ⟨Field.optional_lawful _, Field.optional_lawful _, Field.optional_lawful _,
    Field.repeated_lawful _, Field.optional_lawful _, Field.repeated_lawful _,
    Field.optional_lawful _⟩
  tags := (by decide : ([42, 50, 10, 18, 34, 26, 66] : List UInt32).Nodup)
  apart := ⟨⟨{}, {}, {}, {}, {}, {}⟩, ⟨{}, {}, {}, {}, {}⟩, ⟨{}, {}, {}, {}⟩, ⟨{}, {}, {}⟩,
    ⟨{}, {}⟩, {}, trivial, trivial⟩
  copies _ := ⟨rfl, rfl, rfl, rfl, rfl, rfl, rfl, rfl⟩

namespace Autonat

theorem PeerInfo.codec_lawful : PeerInfo.codec.Lawful where
  fields := ⟨Field.optional_lawful _, Field.repeated_lawful _⟩
  tags := (by decide : ([10, 18] : List UInt32).Nodup)
  apart := ⟨{}, trivial, trivial⟩
  copies _ := ⟨rfl, rfl, rfl⟩

theorem Dial.codec_lawful : Dial.codec.Lawful where
  fields := Field.message_lawful PeerInfo.codec_lawful _
  tags := (by decide : ([10] : List UInt32).Nodup)
  apart := ⟨trivial, trivial⟩
  copies _ := ⟨rfl, rfl⟩

theorem DialResponse.codec_lawful : DialResponse.codec.Lawful where
  fields := ⟨Field.optional_lawful _, Field.optional_lawful _, Field.optional_lawful _⟩
  tags := (by decide : ([8, 18, 26] : List UInt32).Nodup)
  apart := ⟨⟨{}, {}⟩, {}, trivial, trivial⟩
  copies _ := ⟨rfl, rfl, rfl, rfl⟩

theorem Message.codec_lawful : Message.codec.Lawful where
  fields := ⟨Field.optional_lawful _, Field.message_lawful Dial.codec_lawful _,
    Field.message_lawful DialResponse.codec_lawful _⟩
  tags := (by decide : ([8, 18, 26] : List UInt32).Nodup)
  apart := ⟨⟨{}, {}⟩, {}, trivial, trivial⟩
  copies _ := ⟨rfl, rfl, rfl, rfl⟩

end Autonat

end Proto

end XStack
