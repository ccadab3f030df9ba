import Mathlib.Data.List.Basic

/-!
# Byte streams

The receiving half of a stream delivers its bytes in chunks of any size.  A read takes bytes of one
chunk only, and `readExact` reads until its buffer is full; what it returns does not depend on the
chunks (`readExact_append`, `readExact_short`).

## Main definitions

* `ByteStream` : the chunks that are still to come, and how the stream ends.
* `ByteStream.read`, `ByteStream.readExact` : `poll_read`, and `AsyncReadExt::read_exact`.
* `ByteStream.Same` : two streams that differ in their chunks only.
-/

namespace XStack

/-- Bytes that arrive together. -/
abbrev Chunk := { bytes : List UInt8 // bytes ≠ [] }

/-- What is left of a chunk when `n` of its bytes have been taken. -/
def Chunk.rest (c : Chunk) (n : ℕ) (h : n < c.1.length) : Chunk :=
  ⟨c.1.drop n, fun hnil => Nat.not_le_of_lt h (List.drop_eq_nil_iff.1 hnil)⟩

/-- The receiving half of a stream, with errors `ε`. -/
structure ByteStream (ε : Type*) where
  /-- The chunks to come. -/
  chunks : List Chunk
  /-- The error the stream ends with; it is closed if there is none. -/
  failure : Option ε

namespace ByteStream

variable {ε : Type*}

/-- The bytes to come. -/
def bytes (s : ByteStream ε) : List UInt8 := s.chunks.flatMap Subtype.val

/-- Read into a buffer of `n` bytes; no bytes are read at the end of the stream. -/
def read (n : ℕ) (s : ByteStream ε) : Except ε (List UInt8) × ByteStream ε :=
  if n = 0 then (.ok [], s)
  else
    match s.chunks with
    | [] =>
      match s.failure with
      | none => (.ok [], s)
      | some e => (.error e, s)
    | c :: chunks =>
      if h : n < c.1.length then
        (.ok (c.1.take n), { s with chunks := Chunk.rest c n h :: chunks })
      else (.ok c.1, { s with chunks := chunks })

/-- The loop of `read_exact`, which takes one chunk after the other. -/
def readLoop (failure : ε) : List Chunk → ℕ → Except ε (List UInt8) × List Chunk
  | chunks, 0 => (.ok [], chunks)
  | [], _ + 1 => (.error failure, [])
  | c :: chunks, n + 1 =>
    if h : n + 1 < c.1.length then (.ok (c.1.take (n + 1)), Chunk.rest c (n + 1) h :: chunks)
    else
      match readLoop failure chunks (n + 1 - c.1.length) with
      | (.ok bytes, chunks) => (.ok (c.1 ++ bytes), chunks)
      | (.error e, chunks) => (.error e, chunks)

/-- Fill a buffer of `n` bytes; `eof` is the error if the stream is closed before. -/
def readExact (eof : ε) (n : ℕ) (s : ByteStream ε) : Except ε (List UInt8) × ByteStream ε :=
  ((readLoop (s.failure.getD eof) s.chunks n).1,
    { s with chunks := (readLoop (s.failure.getD eof) s.chunks n).2 })

/-- The streams differ in their chunks only. -/
structure Same (s t : ByteStream ε) : Prop where
  bytes : s.bytes = t.bytes
  failure : s.failure = t.failure

variable {s t : ByteStream ε}

theorem readLoop_append (failure : ε) (chunks : List Chunk) {body rest : List UInt8}
    (h : chunks.flatMap Subtype.val = body ++ rest) :
    (readLoop failure chunks body.length).1 = .ok body ∧
      (readLoop failure chunks body.length).2.flatMap Subtype.val = rest := by
  induction chunks generalizing body with
  | nil =>
    obtain ⟨rfl, rfl⟩ := List.append_eq_nil_iff.1 h.symm
    exact ⟨rfl, rfl⟩
  | cons c chunks ih =>
    rcases hn : body.length with _ | n
    · rw [List.length_eq_zero_iff] at hn
      subst hn
      exact ⟨rfl, h⟩
    · rw [List.flatMap_cons] at h
      unfold readLoop
      split_ifs with hlong
      · -- the chunk is longer than what is left of the buffer
        obtain ⟨tail, htail, hrest⟩ : ∃ tail, c.1 = body ++ tail ∧
            rest = tail ++ chunks.flatMap Subtype.val := by
          rcases List.append_eq_append_iff.1 h with ⟨tail, hbody, -⟩ | ⟨tail, hc, hrest⟩
          · have hlen := congrArg List.length hbody
            rw [List.length_append] at hlen
            omega
          · exact ⟨tail, hc, hrest⟩
        constructor
        · show Except.ok (c.1.take (n + 1)) = Except.ok body
          rw [htail, ← hn, List.take_left]
        · show c.1.drop (n + 1) ++ chunks.flatMap Subtype.val = rest
          rw [htail, ← hn, List.drop_left, hrest]
      · obtain ⟨tail, htail, hrest⟩ : ∃ tail, body = c.1 ++ tail ∧
            chunks.flatMap Subtype.val = tail ++ rest := by
          rcases List.append_eq_append_iff.1 h with ⟨tail, hbody, hrest⟩ | ⟨tail, hc, hrest⟩
          · exact ⟨tail, hbody, hrest⟩
          · have hlen := congrArg List.length hc
            rw [List.length_append] at hlen
            have htail : tail = [] := List.length_eq_zero_iff.1 (by omega)
            subst htail
            exact ⟨[], by simpa using hc.symm, by simpa using hrest.symm⟩
        have hleft : n + 1 - c.1.length = tail.length := by
          have hlen := congrArg List.length htail
          rw [List.length_append] at hlen
          omega
        obtain ⟨hok, hchunks⟩ := ih hrest
        rw [hleft]
        rcases hloop : readLoop failure chunks tail.length with ⟨r, chunks'⟩
        rw [hloop] at hok hchunks
        subst hok
        exact ⟨by rw [htail], hchunks⟩

theorem readLoop_short (failure : ε) (chunks : List Chunk) {n : ℕ}
    (h : (chunks.flatMap Subtype.val).length < n) :
    readLoop failure chunks n = (.error failure, []) := by
  induction chunks generalizing n with
  | nil =>
    obtain ⟨n, rfl⟩ := Nat.exists_eq_succ_of_ne_zero (Nat.ne_of_gt h)
    rfl
  | cons c chunks ih =>
    rw [List.flatMap_cons, List.length_append] at h
    obtain ⟨n, rfl⟩ := Nat.exists_eq_succ_of_ne_zero (Nat.ne_of_gt (Nat.zero_lt_of_lt h))
    unfold readLoop
    rw [dif_neg (by omega), ih (by omega)]

/-- **A full buffer**: the bytes asked for have come, and the others are still to come. -/
theorem readExact_append (eof : ε) {body rest : List UInt8} (h : s.bytes = body ++ rest) :
    ∃ s', s.readExact eof body.length = (.ok body, s') ∧ s'.bytes = rest ∧
      s'.failure = s.failure := by
  obtain ⟨hok, hrest⟩ := readLoop_append (s.failure.getD eof) s.chunks h
  exact ⟨(s.readExact eof body.length).2, by rw [← hok]; rfl, hrest, rfl⟩

/-- **A stream that ends too early**: all of it has been read. -/
theorem readExact_short (eof : ε) {n : ℕ} (h : s.bytes.length < n) :
    s.readExact eof n = (.error (s.failure.getD eof), { s with chunks := [] }) := by
  rw [readExact, readLoop_short _ s.chunks h]

/-- Reading does not depend on the chunks. -/
theorem Same.readExact (h : s.Same t) (eof : ε) (n : ℕ) :
    (s.readExact eof n).1 = (t.readExact eof n).1 ∧
      (s.readExact eof n).2.Same (t.readExact eof n).2 := by
  by_cases hn : n ≤ s.bytes.length
  · have hs : s.bytes = s.bytes.take n ++ s.bytes.drop n := (List.take_append_drop n _).symm
    obtain ⟨s', hs', hrest, hfail⟩ := readExact_append eof hs
    obtain ⟨t', ht', hrest', hfail'⟩ := readExact_append eof (h.bytes.symm.trans hs)
    rw [List.length_take_of_le hn] at hs' ht'
    rw [hs', ht']
    exact ⟨rfl, hrest.trans hrest'.symm, hfail.trans (h.failure.trans hfail'.symm)⟩
  · have hs : s.bytes.length < n := Nat.lt_of_not_le hn
    rw [readExact_short eof hs, readExact_short eof (h.bytes ▸ hs), h.failure]
    exact ⟨rfl, ⟨rfl, rfl⟩⟩

theorem read_one_cons {b : UInt8} {rest : List UInt8} (h : s.bytes = b :: rest) :
    ∃ s', s.read 1 = (.ok [b], s') ∧ s'.bytes = rest ∧ s'.failure = s.failure := by
  rcases s with ⟨_ | ⟨⟨c, hc⟩, chunks⟩, failure⟩
  · cases h
  · rcases c with _ | ⟨b', c⟩
    · exact absurd rfl hc
    · cases h
      rw [read, if_neg Nat.one_ne_zero]
      dsimp only
      split_ifs with hlong
      · exact ⟨_, rfl, rfl, rfl⟩
      · have hnil : c = [] := by
          rw [List.length_cons] at hlong
          exact List.length_eq_zero_iff.1 (by omega)
        subst hnil
        exact ⟨_, rfl, rfl, rfl⟩

theorem read_one_nil (h : s.bytes = []) :
    s.read 1 = (match s.failure with | none => .ok [] | some e => .error e, s) := by
  rcases s with ⟨_ | ⟨⟨c, hc⟩, chunks⟩, failure⟩
  · rcases failure with _ | e <;> rfl
  · exact absurd (List.append_eq_nil_iff.1 h).1 hc

end ByteStream

end XStack
