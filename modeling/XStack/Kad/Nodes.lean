import XStack.Kad.Key

/-!
# Some nodes and their digests

`Sha256.ofNodes` is the SHA-256 digest on the ids of a few nodes.  Seen from `node 0`, the nodes 2,
3, 5, 6 and 8 belong to the bucket with index 255, and node 1 to the bucket with index 254.
-/

namespace XStack

/-- The peer id that is the identity multihash of 32 equal bytes. -/
def node (n : UInt8) : PeerId := ⟨0x00 :: 0x20 :: List.replicate 32 n⟩

/-- SHA-256 on the ids of the nodes. -/
@[reducible] def Sha256.ofNodes : Sha256 where
  digest bytes := ([
    (0, 0xcb87c4abf1ab1968f184f55a0ddbbb54a4da8123c05437a4fcc71c5bc2cab8c9#256),
    (1, 0x80fa3b83d8d3e636c1bcaf0bb3ab0a658a41b503850165cb6e6e1ab169942fbe#256),
    (2, 0x7d0b4f6b669a3f4132413a6964f2a9968511f4c61908e6a02a5a1819aaea56e1#256),
    (3, 0x5980f115782b3f3b23ec3f075a6ac402d2877815e3d789d7b250a5dcba6966f9#256),
    (5, 0x5b94e5772bd54a1b8a6bad9564288864b72f8f4a475625bbf85bc3283d2f1ba9#256),
    (6, 0x799786ec524662b6bac3002db94b9030db9de38439e03de84e07144b6fec71ec#256),
    (8, 0x24f25f2246f1825b27b5cf4e798e54842ad0ffba29d321b8209bd5a36833e0ae#256)].find?
      fun e : UInt8 × U256 => (node e.1).toBytes == bytes).elim 0#256 Prod.snd

end XStack
