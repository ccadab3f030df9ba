import XStack.Data.Protobuf
import XStack.Data.Varint

/-!
# The wire format of protobuf

A message is a sequence of fields, each of them a tag and a value.  A tag is a varint with the
number of the field and its wire type.  Numbers are varints, negative ones as if they had 64 bits,
and strings, bytes and messages stand behind their length.

`runtime` is a runtime library for this format.  Groups, which nobody writes any more, are not read.
Of a message field that is repeated the last value counts, and numbers that are too large for their
type, or a field with the number 0, are malformed.

## Main results

* `runtime_lawful` : the runtime library does what is documented.
-/

namespace XStack

namespace Protobuf

namespace Wire

variable {ε : Type}

/-! ### Varints -/

/-- A 64-bit number. -/
def encodeVarint (n : ℕ) : List UInt8 := Varint.encode 10 n

/-- A number of at most `k` bytes; a longer encoding than necessary is accepted. -/
def decodeVarint : ℕ → List UInt8 → Option (ℕ × List UInt8)
  | 0, _ => none
  | _ + 1, [] => none
  | k + 1, b :: rest =>
    if b.toNat < 128 then some (b.toNat, rest)
    else (decodeVarint k rest).map fun r => (b.toNat - 128 + 128 * r.1, r.2)

theorem decodeVarint_lt {k n : ℕ} {bytes rest : List UInt8}
    (h : decodeVarint k bytes = some (n, rest)) : rest.length < bytes.length := by
  induction k generalizing bytes n with
  | zero => cases h
  | succ k ih =>
    rcases bytes with _ | ⟨b, bytes⟩
    · cases h
    · rw [decodeVarint] at h
      split_ifs at h
      · cases h
        exact Nat.lt_succ_self _
      · obtain ⟨⟨n', rest'⟩, hr, he⟩ := Option.map_eq_some_iff.1 h
        cases he
        exact (ih hr).trans (Nat.lt_succ_self _)

theorem decodeVarint_encode {k n : ℕ} (hn : n < 128 ^ (k + 1)) (rest : List UInt8) :
    decodeVarint (k + 1) (Varint.encode (k + 1) n ++ rest) = some (n, rest) := by
  induction k generalizing n with
  | zero =>
    have hn : n < 128 := by simpa using hn
    have hb : (UInt8.ofNat n).toNat = n := by
      rw [UInt8.toNat_ofNat']
      omega
    rw [Varint.encode, if_pos hn]
    show (if _ then some (_, rest) else _) = _
    rw [hb, if_pos hn]
  | succ k ih =>
    rw [Varint.encode]
    split_ifs with hlast
    · have hb : (UInt8.ofNat n).toNat = n := by
        rw [UInt8.toNat_ofNat']
        omega
      show (if _ then some (_, rest) else _) = _
      rw [hb, if_pos hlast]
    · have hb : (UInt8.ofNat (n % 128 + 128)).toNat = n % 128 + 128 := by
        rw [UInt8.toNat_ofNat']
        omega
      have hdiv : n / 128 < 128 ^ (k + 1) := by
        rw [pow_succ] at hn
        omega
      show (if _ then _ else Option.map _ (decodeVarint (k + 1)
        (Varint.encode (k + 1) (n / 128) ++ rest))) = _
      rw [hb, if_neg (by omega), ih hdiv]
      simp only [Option.map_some, Option.some.injEq, Prod.mk.injEq, and_true]
      omega

theorem length_encodeVarint_small {n : ℕ} (hn : n < 128) : (encodeVarint n).length = 1 := by
  rw [encodeVarint, Varint.encode, if_pos hn]
  rfl

/-! ### Reading -/

/-- The next varint, a number of 64 bits. -/
def readVarint (malformed : ε) (bytes : List UInt8) : Except ε (ℕ × List UInt8) := do
  let (n, bytes) ← okOr malformed (decodeVarint 10 bytes)
  if n < 0x10000000000000000 then return (n, bytes) else .error malformed

/-- The next `n` bytes. -/
def takeBytes (malformed : ε) (n : ℕ) (bytes : List UInt8) : Except ε (List UInt8 × List UInt8) :=
  if n ≤ bytes.length then .ok (bytes.take n, bytes.drop n) else .error malformed

/-- The bytes behind their length. -/
def readBytes (malformed : ε) (bytes : List UInt8) : Except ε (List UInt8 × List UInt8) := do
  let (n, bytes) ← readVarint malformed bytes
  takeBytes malformed n bytes

/-- The next tag, unless the input is at its end. -/
def readTag (malformed : ε) (bytes : List UInt8) : Except ε (Option (UInt32 × List UInt8)) :=
  if bytes = [] then .ok none
  else do
    let (n, bytes) ← readVarint malformed bytes
    if n < 0x100000000 then return some (.ofNat n, bytes) else .error malformed

/-- The next signed number of 32 bits. -/
def readInt32 (malformed : ε) (bytes : List UInt8) : Except ε (Int32 × List UInt8) := do
  let (n, bytes) ← readVarint malformed bytes
  let v := (UInt64.ofNat n).toInt64
  if v.toInt32.toInt64 = v then return (v.toInt32, bytes) else .error malformed

/-- The value of a field. -/
def readValue (malformed : ε) : (k : Kind) → List UInt8 → Except ε (k.Val × List UInt8)
  | .uint32, bytes => do
    let (n, bytes) ← readVarint malformed bytes
    if n < 0x100000000 then return (.ofNat n, bytes) else .error malformed
  | .uint64, bytes => do
    let (n, bytes) ← readVarint malformed bytes
    return (.ofNat n, bytes)
  | .int32, bytes => readInt32 malformed bytes
  | .enum, bytes => readInt32 malformed bytes
  | .bytes, bytes => readBytes malformed bytes
  | .string, bytes => do
    let (body, bytes) ← readBytes malformed bytes
    let s ← okOr malformed (String.fromUTF8? ⟨body.toArray⟩)
    return (s, bytes)

/-- A message behind its length. -/
def readMessage {M : Type} (malformed : ε) (new : M) (mergeFrom : M → List UInt8 → Except ε M)
    (bytes : List UInt8) : Except ε (M × List UInt8) := do
  let (body, bytes) ← readBytes malformed bytes
  let m ← mergeFrom new body
  return (m, bytes)

/-- The input after a field, which depends on its wire type. -/
def skip (malformed : ε) (tag : UInt32) (bytes : List UInt8) : Except ε (List UInt8) := do
  if tag.toNat / 8 = 0 then .error malformed
  else match tag.toNat % 8 with
  | 0 =>
    let (_, bytes) ← readVarint malformed bytes
    return bytes
  | 1 =>
    let (_, bytes) ← takeBytes malformed 8 bytes
    return bytes
  | 2 =>
    let (_, bytes) ← readBytes malformed bytes
    return bytes
  | 5 =>
    let (_, bytes) ← takeBytes malformed 4 bytes
    return bytes
  | _ => .error malformed

/-! ### Writing -/

/-- The value of a field. -/
def writeValue : (k : Kind) → k.Val → List UInt8
  | .uint32, v => encodeVarint v.toNat
  | .uint64, v => encodeVarint v.toNat
  | .int32, v => encodeVarint v.toInt64.toUInt64.toNat
  | .enum, v => encodeVarint v.toInt64.toUInt64.toNat
  | .bytes, v => encodeVarint v.length ++ v
  | .string, v => encodeVarint v.toUTF8.data.toList.length ++ v.toUTF8.data.toList

/-- A field. -/
def write (k : Kind) (number : ℕ) (v : k.Val) : List UInt8 :=
  encodeVarint (8 * number + k.wireType) ++ writeValue k v

/-- A field with a message. -/
def writeMessage (number : ℕ) (cachedSize : UInt32) (body : List UInt8) : List UInt8 :=
  encodeVarint (8 * number + 2) ++ encodeVarint cachedSize.toNat ++ body

/-- The runtime library. -/
@[reducible] def runtime (malformed notInitialized : ε) : Runtime ε where
  readTag := readTag malformed
  read := readValue malformed
  readMessage := readMessage malformed
  readMessageInto new mergeFrom _ bytes := do
    let (m, bytes) ← readMessage malformed new mergeFrom bytes
    return (some m, bytes)
  skip := skip malformed
  write := write
  writeMessage := writeMessage
  size k number v := (write k number v).length
  varintSize n := (encodeVarint n).length
  notInitialized := notInitialized

/-! ### What is written is read -/

section

variable {malformed notInitialized : ε} {n : ℕ} {bytes rest body : List UInt8}

theorem readVarint_encode (hn : n < 0x10000000000000000) (rest : List UInt8) :
    readVarint malformed (encodeVarint n ++ rest) = .ok (n, rest) := by
  have hn' : n < 128 ^ (9 + 1) := Nat.lt_of_lt_of_le hn (by decide)
  rw [readVarint, encodeVarint, decodeVarint_encode hn']
  exact if_pos hn

theorem readVarint_lt (h : readVarint malformed bytes = .ok (n, rest)) :
    rest.length < bytes.length := by
  obtain ⟨⟨n', bytes'⟩, hdecode, h⟩ := bind_eq_ok.1 h
  dsimp only at h
  split_ifs at h
  cases h
  exact decodeVarint_lt (okOr_ok_iff.1 hdecode)

theorem takeBytes_append (body rest : List UInt8) :
    takeBytes malformed body.length (body ++ rest) = .ok (body, rest) := by
  rw [takeBytes, if_pos (by simp), List.take_left, List.drop_left]

theorem takeBytes_le (h : takeBytes malformed n bytes = .ok (body, rest)) :
    rest.length ≤ bytes.length := by
  unfold takeBytes at h
  split_ifs at h
  cases h
  simp

theorem readBytes_append (hbody : body.length < 0x10000000000000000) (rest : List UInt8) :
    readBytes malformed (encodeVarint body.length ++ body ++ rest) = .ok (body, rest) := by
  rw [readBytes, List.append_assoc, readVarint_encode hbody]
  exact takeBytes_append body rest

theorem readBytes_le (h : readBytes malformed bytes = .ok (body, rest)) :
    rest.length ≤ bytes.length := by
  obtain ⟨⟨n, bytes'⟩, hn, htake⟩ := bind_eq_ok.1 h
  exact (takeBytes_le htake).trans (readVarint_lt hn).le

theorem readTag_append {number wireType : ℕ} (hpos : 1 ≤ number) (hnumber : number ≤ 15)
    (htype : wireType ≤ 7) (rest : List UInt8) :
    readTag malformed (encodeVarint (8 * number + wireType) ++ rest) =
      .ok (some (tagOf number wireType, rest)) := by
  have hne : encodeVarint (8 * number + wireType) ++ rest ≠ [] := by
    have hlen := length_encodeVarint_small (n := 8 * number + wireType) (by omega)
    intro hnil
    rw [(List.append_eq_nil_iff.1 hnil).1] at hlen
    cases hlen
  rw [readTag, if_neg hne, readVarint_encode (by omega)]
  exact if_pos (by omega)

theorem readTag_lt {tag : UInt32} (h : readTag malformed bytes = .ok (some (tag, rest))) :
    rest.length < bytes.length := by
  unfold readTag at h
  split_ifs at h
  · cases h
  · obtain ⟨⟨n, bytes'⟩, hn, htag⟩ := bind_eq_ok.1 h
    dsimp only at htag
    split_ifs at htag
    cases htag
    exact readVarint_lt hn

theorem readInt32_encode (v : Int32) (rest : List UInt8) :
    readInt32 malformed (encodeVarint v.toInt64.toUInt64.toNat ++ rest) = .ok (v, rest) := by
  rw [readInt32, readVarint_encode (UInt64.toNat_lt _)]
  show (if (UInt64.ofNat _).toInt64.toInt32.toInt64 = _ then _ else _) = _
  rw [UInt64.ofNat_toNat, Int64.toInt64_toUInt64, Int32.toInt32_toInt64, if_pos rfl]
  rfl

theorem readInt32_le {v : Int32} (h : readInt32 malformed bytes = .ok (v, rest)) :
    rest.length ≤ bytes.length := by
  obtain ⟨⟨n, bytes'⟩, hn, hv⟩ := bind_eq_ok.1 h
  dsimp only at hv
  split_ifs at hv
  cases hv
  exact (readVarint_lt hn).le

theorem wireType_le (k : Kind) : k.wireType ≤ 7 := by cases k <;> decide

theorem readValue_write (k : Kind) (v : k.Val) (rest : List UInt8)
    (hfits : (writeValue k v).length ≤ maxLen) :
    readValue malformed k (writeValue k v ++ rest) = .ok (v, rest) := by
  cases k with
  | uint32 =>
    have hv := UInt32.toNat_lt v
    rw [readValue, writeValue, readVarint_encode (by omega)]
    show (if v.toNat < 0x100000000 then _ else _) = _
    rw [if_pos hv, UInt32.ofNat_toNat]
    rfl
  | uint64 =>
    rw [readValue, writeValue, readVarint_encode (UInt64.toNat_lt v)]
    show Except.ok (UInt64.ofNat v.toNat, rest) = _
    rw [UInt64.ofNat_toNat]
  | int32 => exact readInt32_encode v rest
  | enum => exact readInt32_encode v rest
  | bytes =>
    have hlen : v.length ≤ maxLen := by
      rw [writeValue, List.length_append] at hfits
      omega
    exact readBytes_append (Nat.lt_of_le_of_lt hlen (by decide)) rest
  | string =>
    have hlen : v.toUTF8.data.toList.length ≤ maxLen := by
      rw [writeValue, List.length_append] at hfits
      omega
    have hutf8 : okOr malformed (String.fromUTF8? ⟨v.toUTF8.data.toList.toArray⟩) = .ok v := by
      rw [okOr_ok_iff, Array.toArray_toList, String.fromUTF8?,
        dif_pos (show v.toUTF8.IsValidUTF8 from v.isValidUTF8)]
      rfl
    rw [readValue, writeValue, readBytes_append (Nat.lt_of_le_of_lt hlen (by decide))]
    show (okOr malformed (String.fromUTF8? ⟨v.toUTF8.data.toList.toArray⟩) >>= _) = _
    rw [hutf8]
    rfl

theorem readValue_le {k : Kind} {v : k.Val} (h : readValue malformed k bytes = .ok (v, rest)) :
    rest.length ≤ bytes.length := by
  cases k with
  | uint32 =>
    obtain ⟨⟨n, bytes'⟩, hn, hv⟩ := bind_eq_ok.1 h
    dsimp only at hv
    split_ifs at hv
    cases hv
    exact (readVarint_lt hn).le
  | int32 | enum => exact readInt32_le h
  | uint64 =>
    obtain ⟨⟨n, bytes'⟩, hn, hv⟩ := bind_eq_ok.1 h
    cases hv
    exact (readVarint_lt hn).le
  | bytes => exact readBytes_le h
  | string =>
    obtain ⟨⟨body, bytes'⟩, hbody, hv⟩ := bind_eq_ok.1 h
    obtain ⟨s, -, hs⟩ := bind_eq_ok.1 hv
    cases hs
    exact readBytes_le hbody

theorem readMessage_le {M : Type} {new m : M} {mergeFrom : M → List UInt8 → Except ε M}
    (h : readMessage malformed new mergeFrom bytes = .ok (m, rest)) :
    rest.length ≤ bytes.length := by
  obtain ⟨⟨body, bytes'⟩, hbody, hm⟩ := bind_eq_ok.1 h
  obtain ⟨m', -, hs⟩ := bind_eq_ok.1 hm
  cases hs
  exact readBytes_le hbody

theorem skip_le {tag : UInt32} (h : skip malformed tag bytes = .ok rest) :
    rest.length ≤ bytes.length := by
  unfold skip at h
  split_ifs at h
  split at h
  · obtain ⟨⟨n, bytes'⟩, hn, hs⟩ := bind_eq_ok.1 h
    cases hs
    exact (readVarint_lt hn).le
  · obtain ⟨⟨body, bytes'⟩, hbody, hs⟩ := bind_eq_ok.1 h
    cases hs
    exact takeBytes_le hbody
  · obtain ⟨⟨body, bytes'⟩, hbody, hs⟩ := bind_eq_ok.1 h
    cases hs
    exact readBytes_le hbody
  · obtain ⟨⟨body, bytes'⟩, hbody, hs⟩ := bind_eq_ok.1 h
    cases hs
    exact takeBytes_le hbody
  · cases h

/-- **The runtime library does what is documented.** -/
theorem runtime_lawful (malformed notInitialized : ε) :
    @Runtime.Lawful ε (runtime malformed notInitialized) := by
  let _ := runtime malformed notInitialized
  constructor
  case readTag_nil =>
    show readTag malformed [] = .ok none
    exact if_pos rfl
  case readTag_lt => exact readTag_lt
  case read_le => exact readValue_le
  case readMessage_le => exact readMessage_le
  case readMessageInto_le =>
    intro M new mergeFrom field field' bytes rest h
    obtain ⟨⟨m, bytes'⟩, hm, hs⟩ := bind_eq_ok.1 h
    cases hs
    exact readMessage_le hm
  case skip_le => exact skip_le
  case read_write =>
    intro k number v rest hpos hnumber hsize
    have hfits : (writeValue k v).length ≤ maxLen := by
      have hlen : (write k number v).length ≤ maxLen := hsize
      rw [write, List.length_append] at hlen
      omega
    refine ⟨writeValue k v ++ rest, ?_, readValue_write k v rest hfits⟩
    show readTag malformed (encodeVarint _ ++ writeValue k v ++ rest) = _
    rw [List.append_assoc]
    exact readTag_append hpos hnumber (wireType_le k) _
  case readMessage_write =>
    intro number body rest hpos hnumber hbody
    have hlen : body.length < 0x100000000 := Nat.lt_of_le_of_lt hbody (by decide)
    refine ⟨encodeVarint body.length ++ body ++ rest, ?_, fun new mergeFrom => ?_⟩
    · show readTag malformed (writeMessage number (.ofNat body.length) body ++ rest) = _
      rw [writeMessage, UInt32.toNat_ofNat_of_lt' hlen, List.append_assoc, List.append_assoc,
        readTag_append hpos hnumber (by decide), List.append_assoc]
    · show readMessage malformed new mergeFrom _ = _
      rw [readMessage, readBytes_append (Nat.lt_of_lt_of_le hlen (by decide))]
      show (mergeFrom new body >>= _) = _
      rcases mergeFrom new body with e | m <;> rfl
  case readMessageInto_none =>
    intro M new mergeFrom bytes
    show (readMessage malformed new mergeFrom bytes >>= _) =
      Except.map _ (readMessage malformed new mergeFrom bytes)
    rcases readMessage malformed new mergeFrom bytes with e | ⟨m, bytes'⟩ <;> rfl
  case length_write => exact fun _ _ _ _ _ _ => rfl
  case length_writeMessage =>
    intro number cachedSize body hpos hnumber
    show (writeMessage number cachedSize body).length =
      1 + (encodeVarint cachedSize.toNat).length + body.length
    rw [writeMessage, List.length_append, List.length_append,
      length_encodeVarint_small (by omega)]

end

end Wire

end Protobuf

end XStack
