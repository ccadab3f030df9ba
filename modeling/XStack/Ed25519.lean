import XStack.Basic

/-!
# Nodes with Ed25519 keys

`Libp2p.ed25519` is the behaviour of the third-party functions of `Libp2p` for nodes whose host keys
are Ed25519 keys: a key is encoded in 36 bytes, its peer id is the identity multihash of that
encoding, and an identify message that carries nothing but such a key is one protobuf field.  The
keys `keyA`, `keyB` and `keyC` are valid Ed25519 public keys.
-/

namespace XStack

namespace Libp2p

/-- `unsigned_varint` decoding, seven bits a byte, least significant first. -/
def readVarint : ℕ → List UInt8 → Except Error (ℕ × List UInt8)
  | _, [] => .error (.unsignedVarint "unexpected end of file")
  | shift, b :: rest =>
    if b.toNat < 128 then .ok (b.toNat <<< shift, rest)
    else (readVarint (shift + 7) rest).map fun (n, rest) => ((b.toNat - 128) <<< shift + n, rest)

/-- The functions on messages of nodes with Ed25519 keys. -/
@[reducible] def ed25519 : Libp2p where
  toPeerId key := ⟨0x00 :: key.encodeProtobuf.length.toUInt8 :: key.encodeProtobuf⟩
  tryDecodeProtobuf bytes :=
    if bytes.take 4 = [0x08, 0x01, 0x12, 0x20] ∧ bytes.length = 36 then .ok ⟨bytes⟩
    else .error (.identityDecodingError "not an Ed25519 key")
  readUsize := readVarint 0
  parseIdentity
    | 0x0a :: len :: key =>
      if len.toNat = key.length then .ok ⟨key, [], none, []⟩
      else .error (.protobufError "more than a key")
    | _ => .error (.protobufError "no key")
  decodeMultiaddr
    | [] => .ok []
    | _ => .error (.multiaddr "unknown protocol")

end Libp2p

/-- The encoding of an Ed25519 key. -/
def ed25519Key (bytes : List UInt8) : PublicKey := ⟨[0x08, 0x01, 0x12, 0x20] ++ bytes⟩

/-- An Ed25519 key. -/
def keyA : PublicKey := ed25519Key [
  0xd7, 0x5a, 0x98, 0x01, 0x82, 0xb1, 0x0a, 0xb7, 0xd5, 0x4b, 0xfe, 0xd3, 0xc9, 0x64,
  0x07, 0x3a, 0x0e, 0xe1, 0x72, 0xf3, 0xda, 0xa6, 0x23, 0x25, 0xaf, 0x02, 0x1a, 0x68,
  0xf7, 0x07, 0x51, 0x1a]

/-- An Ed25519 key. -/
def keyB : PublicKey := ed25519Key [
  0x3d, 0x40, 0x17, 0xc3, 0xe8, 0x43, 0x89, 0x5a, 0x92, 0xb7, 0x0a, 0xa7, 0x4d, 0x1b,
  0x7e, 0xbc, 0x9c, 0x98, 0x2c, 0xcf, 0x2e, 0xc4, 0x96, 0x8c, 0xc0, 0xcd, 0x55, 0xf1,
  0x2a, 0xf4, 0x66, 0x0c]

/-- An Ed25519 key. -/
def keyC : PublicKey := ed25519Key [
  0xfc, 0x51, 0xcd, 0x8e, 0x62, 0x18, 0xa1, 0xa3, 0x8d, 0xa4, 0x7e, 0xd0, 0x02, 0x30,
  0xf0, 0x58, 0x08, 0x16, 0xed, 0x13, 0xba, 0x33, 0x03, 0xac, 0x5d, 0xeb, 0x91, 0x15,
  0x48, 0x90, 0x80, 0x25]

end XStack
