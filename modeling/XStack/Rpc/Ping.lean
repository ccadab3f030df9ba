import XStack.Rpc.Session

/-!
# Ping

A ping is 32 random bytes that the other side has to send back.  The answering side,
`Switch::ping_echo`, is a loop that ends when the stream does; the reservations of the circuit crate
ping on one stream again and again.

## Main definitions

* `xstackPing`, `pingEcho` : the two sides, `pings` : one ping after the other.

## Main results

* `ping_session` : all pings are answered.
-/

namespace XStack

namespace XStackRpc

/-- `Error::Ping`, as an io error. -/
def pingError : Error := .ioError "Received mismatched ping response"

/-- `XStackRpc::xstack_ping`; `buf` is what `fill_bytes` draws. -/
def xstackPing (buf : List UInt8) : Rpc Unit := do
  writeAll buf
  newBuf 32
  let echo ← readExact 32
  if echo ≠ buf then throw pingError else pure ()

/-- Pings on one stream, one after the other, until one of them fails. -/
def pings : List (List UInt8) → Rpc Unit
  | [] => pure ()
  | buf :: bufs => do
    xstackPing buf
    pings bufs

/-- A round of `ping_echo`. -/
def echoRound : Rpc Unit := do
  newBuf 32
  let buf ← readExact 32
  writeAll buf

/-- Some rounds of the loop of `ping_echo`. -/
def echoRounds : ℕ → Rpc Unit
  | 0 => pure ()
  | n + 1 => do
    echoRound
    echoRounds n

/-- `Switch::ping_echo`.  A round takes bytes off the stream, so there are fewer rounds than bytes
until the loop ends with an error. -/
def pingEcho : Rpc Unit := fun s => echoRounds (s.incoming.bytes.length + 1) s

/-- The turns of the side that pings. -/
def pingTurns (bufs : List (List UInt8)) : List Turn :=
  bufs.flatMap fun buf => [.send buf, .recv buf]

variable {buf : List UInt8} {bufs : List (List UInt8)} {s s' : RpcStream}

theorem readPing_follows (hbuf : buf.length = 32) : Follows (readExact 32) [.recv buf] buf :=
  readExact_follows (by rw [hbuf]; rfl)

theorem xstackPing_follows (hbuf : buf.length = 32) :
    Follows (xstackPing buf) [.send buf, .recv buf] () := by
  refine (writeAll_follows buf).bind ((newBuf_follows 32).bind
    ((readPing_follows hbuf).bind ?_))
  rw [if_neg (not_not.2 rfl)]
  exact .pure

theorem pings_follows (hbufs : ∀ buf ∈ bufs, buf.length = 32) :
    Follows (pings bufs) (pingTurns bufs) () := by
  induction bufs with
  | nil => exact .pure
  | cons buf bufs ih =>
    obtain ⟨hbuf, hbufs⟩ := List.forall_mem_cons.1 hbufs
    exact (xstackPing_follows hbuf).bind (ih hbufs)

theorem echoRound_follows (hbuf : buf.length = 32) :
    Follows echoRound [.recv buf, .send buf] () :=
  (newBuf_follows 32).bind ((readPing_follows hbuf).bind (writeAll_follows buf))

/-- **The loop** answers every ping that has arrived, and fails when there are no more bytes. -/
theorem echoRounds_spec (hbufs : ∀ buf ∈ bufs, buf.length = 32) (hw : s.writeFailure = none)
    (hs : s.incoming.bytes <+: Turn.sent (pingTurns bufs)) {n : ℕ}
    (hn : s.incoming.bytes.length < n) :
    ∃ e s', echoRounds n s = .error e s' ∧ s'.outgoing = s.outgoing ++
      Turn.sentAfter ((pingTurns bufs).map Turn.dual) s.incoming.bytes := by
  induction bufs generalizing s n with
  | nil =>
    -- no ping has arrived
    have hnil : s.incoming.bytes = [] := List.prefix_nil.1 hs
    obtain ⟨n, rfl⟩ := Nat.exists_eq_add_one_of_ne_zero (Nat.ne_zero_of_lt hn)
    obtain ⟨e, s', herror, hout⟩ := (echoRound_follows (List.length_replicate (a := 0))).short s hw
      (hnil ▸ List.nil_prefix) (hnil ▸ (List.cons_ne_nil _ _).symm)
    refine ⟨e, s', run_bind_error herror, ?_⟩
    rw [hout, hnil]
    rfl
  | cons buf bufs ih =>
    obtain ⟨hbuf, hbufs⟩ := List.forall_mem_cons.1 hbufs
    obtain ⟨n, rfl⟩ := Nat.exists_eq_add_one_of_ne_zero (Nat.ne_zero_of_lt hn)
    have hturns : (pingTurns (buf :: bufs)).map Turn.dual =
      [.recv buf, .send buf] ++ (pingTurns bufs).map Turn.dual := rfl
    have hs : s.incoming.bytes <+: buf ++ Turn.sent (pingTurns bufs) := hs
    rw [hturns]
    by_cases hfirst : s.incoming.bytes <+: buf ∧ s.incoming.bytes ≠ buf
    · -- only a part of the next ping has arrived
      obtain ⟨e, s', herror, hout⟩ := (echoRound_follows hbuf).short s hw
        (by simpa [Turn.received] using hfirst.1) (by simpa [Turn.received] using hfirst.2)
      refine ⟨e, s', run_bind_error herror, ?_⟩
      rw [hout, Turn.sentAfter_short (by simpa [Turn.received] using hfirst.1)
        (by simpa [Turn.received] using hfirst.2)]
    · obtain ⟨rest, hrest⟩ : buf <+: s.incoming.bytes := by
        rcases List.prefix_or_prefix_of_prefix (List.prefix_append _ _) hs with hle | hle
        · exact hle
        · rw [not_and_not_right] at hfirst
          exact hfirst hle ▸ List.prefix_rfl
      rw [← hrest, List.prefix_append_right_inj] at hs
      obtain ⟨s₁, hround, hin, hw₁, hout⟩ := (echoRound_follows hbuf).whole s rest hw
        (by rw [← hrest]; simp [Turn.received])
      have hlen : rest.length < n := by
        have hbytes := congrArg List.length hrest
        rw [List.length_append] at hbytes
        omega
      obtain ⟨e, s', herror, hout'⟩ := ih hbufs hw₁ (hin ▸ hs) (hin ▸ hlen)
      refine ⟨e, s', (run_bind_ok hround).trans herror, ?_⟩
      have hafter := Turn.sentAfter_append [.recv buf, .send buf]
        ((pingTurns bufs).map Turn.dual) rest
      simp only [Turn.received, List.append_nil] at hafter
      rw [hout', hout, hin, ← hrest, hafter, List.append_assoc]

theorem pingEcho_keeps (hbufs : ∀ buf ∈ bufs, buf.length = 32) :
    Turn.Keeps (written pingEcho) ((pingTurns bufs).map Turn.dual) := by
  intro chunks hchunks
  rw [Turn.received_dual] at hchunks
  obtain ⟨e, s', herror, hout⟩ := echoRounds_spec (s := .ending chunks none) hbufs rfl hchunks
    (Nat.lt_succ_self _)
  rw [written, pingEcho, herror]
  exact hout

/-- A ping that succeeds has been answered with the same bytes. -/
theorem echoed_of_xstackPing (h : xstackPing buf s = .ok () s') :
    s.incoming.bytes = buf ++ s'.incoming.bytes := by
  obtain ⟨⟨⟩, s₁, hwrite, h⟩ := run_bind_eq_ok.1 h
  obtain ⟨⟨⟩, s₂, hnew, h⟩ := run_bind_eq_ok.1 h
  obtain ⟨echo, s₃, hread, h⟩ := run_bind_eq_ok.1 h
  obtain rfl : echo = buf := by
    by_contra hecho
    rw [if_pos hecho] at h
    cases h
  rw [if_neg (not_not.2 rfl)] at h
  cases h
  have hin : s₂.incoming = s.incoming := by
    unfold writeAll at hwrite
    split at hwrite <;> cases hwrite
    cases hnew
    rfl
  have h32 : (32 : UInt64).toNat = 32 := rfl
  rw [← hin]
  by_cases hlen : 32 ≤ s₂.incoming.bytes.length
  · obtain ⟨incoming, hexact, hrest, -⟩ := ByteStream.readExact_append
      (.ioError "unexpected end of file") (List.take_append_drop 32 s₂.incoming.bytes).symm
    rw [List.length_take_of_le hlen] at hexact
    rw [readExact, h32, hexact, received] at hread
    cases hread
    rw [hrest, List.take_append_drop]
  · rw [readExact, h32, ByteStream.readExact_short _ (Nat.lt_of_not_le hlen), received] at hread
    cases hread

theorem echoed_of_pings (h : pings bufs s = .ok () s') :
    s.incoming.bytes = bufs.flatten ++ s'.incoming.bytes := by
  induction bufs generalizing s with
  | nil =>
    cases h
    rfl
  | cons buf bufs ih =>
    obtain ⟨⟨⟩, s₁, hping, h⟩ := run_bind_eq_ok.1 h
    rw [echoed_of_xstackPing hping, ih h, List.flatten_cons, List.append_assoc]

/-- **All pings on a stream are answered.**  In every run of any number of pings and the loop that
echoes them, whatever has arrived so far, all of the pings can succeed, and no run goes on forever
without new pings.  And whoever is at the other end, pings only succeed if their bytes have come
back, one after the other. -/
theorem ping_session (bufs : List (List UInt8)) (hbufs : ∀ buf ∈ bufs, buf.length = 32) :
    (∀ h s, (talk (pings bufs) pingEcho).Run h s →
      (talk (pings bufs) pingEcho).Leads (fun _ _ => True)
        (fun s => Returns (pings bufs) s.toLeft ()) s ∧
      h.length ≤ (Turn.received (pingTurns bufs)).length + (Turn.sent (pingTurns bufs)).length) ∧
    ∀ s s', pings bufs s = .ok () s' →
      s.incoming.bytes = bufs.flatten ++ s'.incoming.bytes := by
  refine ⟨fun h s hr => ⟨?_, ?_⟩, fun s s' h => echoed_of_pings h⟩
  · exact (sessionLts_leads (pings_follows hbufs).keeps (pingEcho_keeps hbufs) hr).mono
      fun s hover => (pings_follows hbufs).returns hover.1
  · exact sessionLts_length_le (pings_follows hbufs).keeps (pingEcho_keeps hbufs) hr

/-- Two pings. -/
theorem ping_session_two :
    (talk (pings [List.replicate 32 1, List.replicate 32 2]) pingEcho).Leads (fun _ _ => True)
      (fun s => Returns (pings [List.replicate 32 1, List.replicate 32 2]) s.toLeft ())
      ⟨[], []⟩ :=
  ((ping_session [List.replicate 32 1, List.replicate 32 2] (by decide)).1 [] _ (.start rfl)).1

end XStackRpc

end XStack
