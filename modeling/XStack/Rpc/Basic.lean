import XStack.Basic
import XStack.Data.ByteStream

/-!
# Remote procedure calls

The protocols of the stack exchange protobuf messages, each of them behind a varint that is the
length of its encoding.  The sending half of this format is written out three times in the source
and the receiving half four times; every one of them keeps its own definition here.

The varints and the encoding of the messages are third-party code and are parameters
(`UnsignedVarint`, `Message`), with what the callers rely on as `UnsignedVarint.Lawful` and
`Message.Lawful`.

## Main definitions

* `RpcStream`, `Rpc` : a stream, and the code that uses it.
* `xstackSend`, `xstackCall`, `xstackRecv`, `xstackRecvIdentity` : `XStackRpc`.
* `identityResponse`, `autonatRequest` : the two places that do without it.
-/

namespace XStack

/-- The third-party encoding of lengths. -/
class UnsignedVarint where
  /-- `unsigned_varint::encode::usize`. -/
  encodeUsize : UInt64 → List UInt8
  /-- `unsigned_varint::aio::read_usize`. -/
  readUsize : ByteStream Error → Except Error UInt64 × ByteStream Error

/-- What is documented of the encoding of lengths. -/
class UnsignedVarint.Lawful [UnsignedVarint] : Prop where
  /-- Reading undoes encoding, and reads nothing else. -/
  read_encode : ∀ (n : UInt64) (s : ByteStream Error) (rest : List UInt8),
    s.bytes = encodeUsize n ++ rest →
    ∃ s', readUsize s = (.ok n, s') ∧ s'.bytes = rest ∧ s'.failure = s.failure
  /-- The bytes are read one by one, so the chunks do not matter. -/
  read_same : ∀ s t : ByteStream Error, s.Same t →
    (readUsize s).1 = (readUsize t).1 ∧ (readUsize s).2.Same (readUsize t).2

/-- `protobuf::Message`, which the build generates for every message type. -/
class Message (M : Type) where
  /-- `Message::write_to_bytes`. -/
  writeToBytes : M → Except Error (List UInt8)
  /-- `Message::parse_from_bytes`. -/
  parseFromBytes : List UInt8 → Except Error M

/-- Parsing undoes writing. -/
class Message.Lawful (M : Type) [Message M] : Prop where
  parse_write : ∀ (m : M) (bytes : List UInt8), writeToBytes m = .ok bytes →
    parseFromBytes bytes = .ok m

/-- A stream, as the code that calls `XStackRpc` on it sees it. -/
structure RpcStream where
  /-- The receiving half. -/
  incoming : ByteStream Error
  /-- The bytes written so far. -/
  outgoing : List UInt8
  /-- The error of the writes; they succeed if there is none. -/
  writeFailure : Option Error
  /-- The lengths of the receive buffers allocated so far. -/
  allocated : List UInt64

/-- Code that uses a stream; the stream remains when it fails. -/
abbrev Rpc := EStateM Error RpcStream

namespace XStackRpc

section Io

/-- `AsyncWriteExt::write_all`. -/
def writeAll (bytes : List UInt8) : Rpc Unit := fun s =>
  match s.writeFailure with
  | none => .ok () { s with outgoing := s.outgoing ++ bytes }
  | some e => .error e s

/-- The result of a read, and the stream after it. -/
def received {α : Type} (s : RpcStream) : Except Error α × ByteStream Error →
    EStateM.Result Error RpcStream α
  | (.ok a, incoming) => .ok a { s with incoming := incoming }
  | (.error e, incoming) => .error e { s with incoming := incoming }

/-- `unsigned_varint::aio::read_usize`. -/
def readUsize [UnsignedVarint] : Rpc UInt64 := fun s =>
  received s (UnsignedVarint.readUsize s.incoming)

/-- `vec![0u8; len]`. -/
def newBuf (len : UInt64) : Rpc Unit := fun s =>
  .ok () { s with allocated := s.allocated ++ [len] }

/-- `AsyncReadExt::read_exact`, into a buffer of this length. -/
def readExact (len : UInt64) : Rpc (List UInt8) := fun s =>
  received s (s.incoming.readExact (.ioError "unexpected end of file") len.toNat)

/-- `?` on a result. -/
def ofExcept {α : Type} (r : Except Error α) : Rpc α := fun s =>
  match r with
  | .ok a => .ok a s
  | .error e => .error e s

end Io

variable [UnsignedVarint] {M : Type} [Message M]

/-- `XStackRpc::xstack_send`. -/
def xstackSend (message : M) : Rpc Unit := do
  let buf ← ofExcept (Message.writeToBytes message)
  writeAll (UnsignedVarint.encodeUsize (.ofNat buf.length))
  writeAll buf

/-- `XStackRpc::xstack_call`. -/
def xstackCall (message : M) (maxRecvLen : UInt64) : Rpc M := do
  xstackSend message
  let bodyLen ← readUsize
  if bodyLen > maxRecvLen then throw (.overflow maxRecvLen.toNat)
  else
    newBuf bodyLen
    let buf ← readExact bodyLen
    ofExcept (Message.parseFromBytes buf)

/-- `XStackRpc::xstack_recv`. -/
def xstackRecv (maxRecvLen : UInt64) : Rpc M := do
  let bodyLen ← readUsize
  if bodyLen > maxRecvLen then throw (.overflow maxRecvLen.toNat)
  else
    newBuf bodyLen
    let buf ← readExact bodyLen
    ofExcept (Message.parseFromBytes buf)

/-- `XStackRpc::xstack_recv_identity`. -/
def xstackRecvIdentity [Message Identity] (maxPacketSize : UInt64) : Rpc Identity := do
  let bodyLen ← readUsize
  if maxPacketSize < bodyLen then throw (.overflow bodyLen.toNat)
  else
    newBuf bodyLen
    let buf ← readExact bodyLen
    ofExcept (Message.parseFromBytes buf)

/-- The end of `Switch::identity_response`: the identity is sent. -/
def identityResponse [Message Identity] (identity : Identity) : Rpc Unit := do
  let buf ← ofExcept (Message.writeToBytes identity)
  writeAll (UnsignedVarint.encodeUsize (.ofNat buf.length))
  writeAll buf

/-- The exchange of `AutoNatClient::autonat_request_prv`; `M` is the type of its messages. -/
def autonatRequest (message : M) (maxPacketSize : UInt64) : Rpc M := do
  let buf ← ofExcept (Message.writeToBytes message)
  writeAll (UnsignedVarint.encodeUsize (.ofNat buf.length))
  writeAll buf
  let bodyLen ← readUsize
  if maxPacketSize < bodyLen then throw (.overflow bodyLen.toNat)
  else
    newBuf bodyLen
    let buf ← readExact bodyLen
    ofExcept (Message.parseFromBytes buf)

/-- Messages sent one after the other. -/
def sendAll : List M → Rpc Unit
  | [] => pure ()
  | m :: ms => do
    xstackSend m
    sendAll ms

/-- Messages received one after the other. -/
def recvAll (maxRecvLen : UInt64) : ℕ → Rpc (List M)
  | 0 => pure []
  | n + 1 => do
    let m ← xstackRecv maxRecvLen
    let ms ← recvAll maxRecvLen n
    return m :: ms

end XStackRpc

end XStack
