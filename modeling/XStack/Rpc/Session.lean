import XStack.Data.Protobuf
import XStack.Lts.Session
import XStack.Rpc.Framing

/-!
# Exchanging messages

What the code at one end of a stream writes depends on what it reads.  `Follows f ts a` says that
`f` takes the turns `ts` and then returns `a`; it is proved of the functions of `XStackRpc` one by
one, and of programs piece by piece (`Follows.bind`).  If the code at the other end takes the same
turns from its side, then the two get through with each other, whatever happens on the way
(`session_concludes`).

## Main definitions

* `written` : what code has written that waits for more.
* `Follows` : code takes its turns.
* `talk` : the session of two ends.

## Main results

* `session_concludes`, `session_agrees`.
-/

namespace XStack

/-- What is documented of the end of a stream. -/
class UnsignedVarint.Stops [UnsignedVarint] : Prop extends UnsignedVarint.Lawful where
  /-- A stream that ends within a number is an error. -/
  read_short : ∀ (n : UInt64) (s : ByteStream Error), s.bytes <+: encodeUsize n →
    s.bytes ≠ encodeUsize n → ∃ e s', readUsize s = (.error e, s')

/-- A stream that ends behind these chunks. -/
def RpcStream.ending (chunks : List Chunk) (failure : Option Error) : RpcStream :=
  ⟨⟨chunks, failure⟩, [], none, []⟩

section

variable {ε α β : Type}

/-- The bytes that have been written, whether the code has failed or not. -/
def outgoingOf : EStateM.Result ε RpcStream α → List UInt8
  | .ok _ s => s.outgoing
  | .error _ s => s.outgoing

/-- What `f` has written once it has received these chunks and waits for more.  No code goes on
after a read has failed, so this is what it has written if the stream ends here. -/
def written (f : EStateM ε RpcStream α) (chunks : List Chunk) : List UInt8 :=
  outgoingOf (f (.ending chunks none))

/-- With these chunks, `f` returns `a`, whatever becomes of the stream behind them, and leaves it to
others. -/
def Returns (f : EStateM ε RpcStream α) (chunks : List Chunk) (a : α) : Prop :=
  ∀ more failure, ∃ s, f (.ending (chunks ++ more) failure) = .ok a s ∧
    s.incoming.bytes = more.flatMap Subtype.val

/-- The code takes the turns `ts`, and returns `a`. -/
structure Follows (f : EStateM ε RpcStream α) (ts : List Turn) (a : α) : Prop where
  /-- It takes no other bytes off the stream. -/
  whole : ∀ (s : RpcStream) (rest : List UInt8), s.writeFailure = none →
    s.incoming.bytes = Turn.received ts ++ rest →
    ∃ s', f s = .ok a s' ∧ s'.incoming.bytes = rest ∧ s'.writeFailure = none ∧
      s'.outgoing = s.outgoing ++ Turn.sent ts
  /-- If the stream ends too early, it has sent what it should have, and fails. -/
  short : ∀ s : RpcStream, s.writeFailure = none → s.incoming.bytes <+: Turn.received ts →
    s.incoming.bytes ≠ Turn.received ts →
    ∃ e s', f s = .error e s' ∧
      s'.outgoing = s.outgoing ++ Turn.sentAfter ts s.incoming.bytes

namespace Follows

variable {f : EStateM ε RpcStream α} {ts us : List Turn} {a : α}

theorem quiet (h : ∀ s : RpcStream, s.writeFailure = none → ∃ s', f s = .ok a s' ∧
    s'.incoming = s.incoming ∧ s'.writeFailure = none ∧ s'.outgoing = s.outgoing) :
    Follows f [] a where
  whole s rest hw hs := by
    obtain ⟨s', hf, hin, hw', hout⟩ := h s hw
    exact ⟨s', hf, by rw [hin, hs]; rfl, hw', by rw [hout, Turn.sent, List.append_nil]⟩
  short _ _ hs hne := absurd (List.prefix_nil.1 hs) hne

theorem pure : Follows (pure a : EStateM ε RpcStream α) [] a :=
  .quiet fun s hw => ⟨s, rfl, rfl, hw, rfl⟩

/-- **One after the other.** -/
theorem bind {g : α → EStateM ε RpcStream β} {b : β} (hf : Follows f ts a)
    (hg : Follows (g a) us b) : Follows (f >>= g) (ts ++ us) b where
  whole s rest hw hs := by
    rw [Turn.received_append, List.append_assoc] at hs
    obtain ⟨s₁, hf₁, hrest, hw₁, hout⟩ := hf.whole s _ hw hs
    obtain ⟨s₂, hg₂, hrest, hw₂, hout'⟩ := hg.whole s₁ rest hw₁ hrest
    refine ⟨s₂, (run_bind_ok hf₁).trans hg₂, hrest, hw₂, ?_⟩
    rw [hout', hout, Turn.sent_append, List.append_assoc]
  short s hw hs hne := by
    rw [Turn.received_append] at hs hne
    by_cases hfirst : s.incoming.bytes <+: Turn.received ts ∧
        s.incoming.bytes ≠ Turn.received ts
    · -- the first part is not over
      obtain ⟨e, s₁, hf₁, hout⟩ := hf.short s hw hfirst.1 hfirst.2
      exact ⟨e, s₁, run_bind_error hf₁, by rw [hout, Turn.sentAfter_short hfirst.1 hfirst.2]⟩
    · obtain ⟨rest, hrest⟩ : Turn.received ts <+: s.incoming.bytes := by
        rcases List.prefix_or_prefix_of_prefix (List.prefix_append _ _) hs with hle | hle
        · exact hle
        · rw [not_and_not_right] at hfirst
          exact hfirst hle ▸ List.prefix_rfl
      rw [← hrest, List.prefix_append_right_inj] at hs
      rw [← hrest] at hne
      obtain ⟨s₁, hf₁, hin, hw₁, hout⟩ := hf.whole s rest hw hrest.symm
      obtain ⟨e, s₂, hg₂, hout'⟩ := hg.short s₁ hw₁ (hin ▸ hs)
        fun heq => hne (by rw [← hin, heq])
      refine ⟨e, s₂, (run_bind_ok hf₁).trans hg₂, ?_⟩
      rw [hout', hout, hin, ← hrest, Turn.sentAfter_append, List.append_assoc]

/-- Code that takes its turns has written what it should have. -/
theorem keeps (hf : Follows f ts a) : Turn.Keeps (written f) ts := by
  intro chunks hchunks
  by_cases hall : chunks.flatMap Subtype.val = Turn.received ts
  · obtain ⟨s', hok, -, -, hout⟩ :=
      hf.whole (.ending chunks none) [] rfl (by rw [List.append_nil]; exact hall)
    rw [written, hok, hall, Turn.sentAfter_received]
    exact hout
  · obtain ⟨e, s', herror, hout⟩ := hf.short (.ending chunks none) rfl hchunks hall
    rw [written, herror]
    exact hout

theorem returns (hf : Follows f ts a) {chunks : List Chunk}
    (hall : chunks.flatMap Subtype.val = Turn.received ts) : Returns f chunks a := by
  intro more failure
  have hbytes : (chunks ++ more).flatMap Subtype.val =
      Turn.received ts ++ more.flatMap Subtype.val := by rw [List.flatMap_append, hall]
  obtain ⟨s', hok, hrest, -⟩ := hf.whole (.ending (chunks ++ more) failure) _ rfl hbytes
  exact ⟨s', hok, hrest⟩

/-- What it returns, and that nothing was missing. -/
theorem of_ok (hf : Follows f ts a) {chunks : List Chunk} {failure : Option Error} {x : α}
    {s : RpcStream} (hchunks : chunks.flatMap Subtype.val <+: Turn.received ts)
    (hok : f (.ending chunks failure) = .ok x s) :
    x = a ∧ chunks.flatMap Subtype.val = Turn.received ts := by
  by_cases hall : chunks.flatMap Subtype.val = Turn.received ts
  · obtain ⟨s', hok', -⟩ := hf.returns hall [] failure
    rw [List.append_nil, hok] at hok'
    cases hok'
    exact ⟨rfl, hall⟩
  · obtain ⟨e, s', herror, -⟩ := hf.short (.ending chunks failure) rfl hchunks hall
    rw [hok] at herror
    cases herror

end Follows

/-! ### The session of two ends -/

variable {δ : Type} {f : EStateM ε RpcStream α} {g : EStateM δ RpcStream β} {ts : List Turn} {a : α}
  {b : β} {h : List Arrival} {s : Wires}

/-- The session of `f` and `g`, from the moment at which they are called. -/
abbrev talk (f : EStateM ε RpcStream α) (g : EStateM δ RpcStream β) : Lts Wires Arrival :=
  sessionLts (written f) (written g)

/-- **Two ends that take the same turns get through with each other.**  In every run, whatever has
arrived so far, the session can go on to the end and both return what they should; it does not go
on forever, and neither of them ever returns anything else. -/
theorem session_concludes (hf : Follows f ts a) (hg : Follows g (ts.map Turn.dual) b)
    (hr : (talk f g).Run h s) :
    (talk f g).Leads (fun _ _ => True) (fun s => Returns f s.toLeft a ∧ Returns g s.toRight b) s ∧
      h.length ≤ (Turn.received ts).length + (Turn.sent ts).length ∧
      (∀ failure x s', f (.ending s.toLeft failure) = .ok x s' → x = a) ∧
      ∀ failure y s', g (.ending s.toRight failure) = .ok y s' → y = b := by
  have ho := sessionLts_ordered hf.keeps hg.keeps hr
  refine ⟨(sessionLts_leads hf.keeps hg.keeps hr).mono fun s hover => ?_,
    sessionLts_length_le hf.keeps hg.keeps hr, fun failure x s' hok => ?_,
    fun failure y s' hok => ?_⟩
  · exact ⟨hf.returns hover.1, hg.returns (hover.2.trans (Turn.received_dual ts).symm)⟩
  · exact (hf.of_ok ho.left_prefix hok).1
  · exact (hg.of_ok ((Turn.received_dual ts).symm ▸ ho.right_prefix) hok).1

variable (ts) in
/-- **Whoever receives the last word knows that the other one returns.** -/
theorem session_agrees {bytes : List UInt8} (hbytes : bytes ≠ [])
    (hf : Follows f (ts ++ [.recv bytes]) a)
    (hg : Follows g ((ts ++ [Turn.recv bytes]).map Turn.dual) b) (hr : (talk f g).Run h s)
    {failure : Option Error} {x : α} {s' : RpcStream}
    (hok : f (.ending s.toLeft failure) = .ok x s') : Returns g s.toRight b := by
  have ho := sessionLts_ordered hf.keeps hg.keeps hr
  have hright := ho.right_of_left hbytes (hf.of_ok ho.left_prefix hok).2
  exact hg.returns (hright.trans (Turn.received_dual _).symm)

end

/-! ### The functions of `XStackRpc` -/

/-- `?` on a result whose error is converted by `err`. -/
def Rpc.lift {ε α : Type} (err : Error → ε) (f : Rpc α) : EStateM ε RpcStream α := fun s =>
  match f s with
  | .ok a s => .ok a s
  | .error e s => .error (err e) s

theorem Follows.lift {ε α : Type} {f : Rpc α} {ts : List Turn} {a : α} (hf : Follows f ts a)
    (err : Error → ε) : Follows (f.lift err) ts a where
  whole s rest hw hs := by
    obtain ⟨s', hok, hs'⟩ := hf.whole s rest hw hs
    exact ⟨s', by rw [Rpc.lift, hok], hs'⟩
  short s hw hs hne := by
    obtain ⟨e, s', herror, hs'⟩ := hf.short s hw hs hne
    exact ⟨err e, s', by rw [Rpc.lift, herror], hs'⟩

namespace XStackRpc

theorem writeAll_follows (bytes : List UInt8) : Follows (writeAll bytes) [.send bytes] () where
  whole s rest hw hs :=
    ⟨{ s with outgoing := s.outgoing ++ bytes }, by rw [writeAll, hw], hs, hw,
      by simp [Turn.sent]⟩
  short _ _ hs hne := absurd (List.prefix_nil.1 hs) hne

theorem newBuf_follows (len : UInt64) : Follows (newBuf len) [] () :=
  .quiet fun _ hw => ⟨_, rfl, rfl, hw, rfl⟩

theorem ofExcept_follows {α : Type} {r : Except Error α} {a : α} (h : r = .ok a) :
    Follows (ofExcept r) [] a :=
  .quiet fun s hw => ⟨s, by rw [h, ofExcept], rfl, hw, rfl⟩

theorem readExact_follows {len : UInt64} {body : List UInt8} (hlen : len.toNat = body.length) :
    Follows (readExact len) [.recv body] body where
  whole s rest hw hs := by
    have hs : s.incoming.bytes = body ++ rest := by simpa [Turn.received] using hs
    obtain ⟨incoming, hread, hrest, -⟩ :=
      ByteStream.readExact_append (.ioError "unexpected end of file") hs
    refine ⟨{ s with incoming := incoming }, ?_, hrest, hw, by simp [Turn.sent]⟩
    rw [readExact, hlen, hread, received]
  short s hw hs hne := by
    simp only [Turn.received, List.append_nil] at hs hne
    have hshort : s.incoming.bytes.length < len.toNat :=
      hlen ▸ Nat.lt_of_le_of_ne hs.length_le fun heq => hne (hs.eq_of_length heq)
    refine ⟨s.incoming.failure.getD (.ioError "unexpected end of file"),
      { s with incoming := { s.incoming with chunks := [] } }, ?_, ?_⟩
    · rw [readExact, ByteStream.readExact_short _ hshort, received]
    · have hnot : ¬ body <+: s.incoming.bytes := fun hle =>
        Nat.not_lt.2 hle.length_le (hlen ▸ hshort)
      rw [Turn.sentAfter, if_neg hnot, List.append_nil]

variable [UnsignedVarint] [UnsignedVarint.Stops]

theorem readUsize_follows (n : UInt64) :
    Follows readUsize [.recv (UnsignedVarint.encodeUsize n)] n where
  whole s rest hw hs := by
    have hs : s.incoming.bytes = UnsignedVarint.encodeUsize n ++ rest := by
      simpa [Turn.received] using hs
    obtain ⟨incoming, hread, hrest, -⟩ := UnsignedVarint.Lawful.read_encode n _ rest hs
    exact ⟨{ s with incoming := incoming }, readUsize_ok hread, hrest, hw, by simp [Turn.sent]⟩
  short s hw hs hne := by
    simp only [Turn.received, List.append_nil] at hs hne
    obtain ⟨e, incoming, hread⟩ := UnsignedVarint.Stops.read_short n s.incoming hs hne
    refine ⟨e, { s with incoming := incoming }, by rw [readUsize, hread, received], ?_⟩
    have hnot : ¬ UnsignedVarint.encodeUsize n <+: s.incoming.bytes := fun hle =>
      hne (hs.eq_of_length (Nat.le_antisymm hs.length_le hle.length_le))
    rw [Turn.sentAfter, if_neg hnot, List.append_nil]

/-- The length of a message. -/
abbrev lenOf (body : List UInt8) : List UInt8 := UnsignedVarint.encodeUsize (.ofNat body.length)

variable {M : Type} [Message M] {m : M} {body : List UInt8} {maxRecvLen : UInt64}

omit [UnsignedVarint.Stops] in
theorem xstackSend_follows (h : Message.writeToBytes m = .ok body) :
    Follows (xstackSend m) [.send (lenOf body), .send body] () :=
  (ofExcept_follows h).bind ((writeAll_follows _).bind (writeAll_follows body))

theorem xstackRecv_follows (hparse : Message.parseFromBytes body = .ok m)
    (hfits : body.length ≤ maxRecvLen.toNat) :
    Follows (xstackRecv maxRecvLen) [.recv (lenOf body), .recv body] m := by
  have hlen : (UInt64.ofNat body.length).toNat = body.length :=
    UInt64.toNat_ofNat_of_lt' (Nat.lt_of_le_of_lt hfits maxRecvLen.toNat_lt)
  refine (readUsize_follows _).bind ?_
  have hle : ¬ UInt64.ofNat body.length > maxRecvLen := by
    rw [gt_iff_lt, UInt64.lt_iff_toNat_lt, hlen]
    exact Nat.not_lt_of_le hfits
  rw [if_neg hle]
  exact (newBuf_follows _).bind ((readExact_follows hlen).bind (ofExcept_follows hparse))

theorem xstackCall_follows {answer : M} {answered : List UInt8}
    (h : Message.writeToBytes m = .ok body) (hparse : Message.parseFromBytes answered = .ok answer)
    (hfits : answered.length ≤ maxRecvLen.toNat) :
    Follows (xstackCall m maxRecvLen)
      [.send (lenOf body), .send body, .recv (lenOf answered), .recv answered] answer :=
  (xstackSend_follows h).bind (xstackRecv_follows hparse hfits)

end XStackRpc

/-! ### Generated messages -/

section

variable [Protobuf.Runtime Error] {M : Type} {c : Protobuf.Codec Error M} {m : M}
  {maxRecvLen : UInt64}

/-- The message can be sent, and is not longer than the other side allows. -/
structure Protobuf.Codec.Fits (c : Protobuf.Codec Error M) (m : M) (maxRecvLen : UInt64) :
    Prop where
  initialized : c.initialized m = true
  size : c.computeSize m ≤ Protobuf.maxLen
  fits : c.computeSize m ≤ maxRecvLen.toNat

namespace Protobuf.Codec.Fits

theorem write (h : c.Fits m maxRecvLen) : c.writeToBytes m = .ok (c.writeTo m) :=
  if_pos h.initialized

variable [Protobuf.Runtime.Lawful Error]

theorem parse (h : c.Fits m maxRecvLen) (hc : c.Lawful) :
    c.parseFromBytes (c.writeTo m) = .ok m ∧ (c.writeTo m).length ≤ maxRecvLen.toNat := by
  obtain ⟨hparse, hlen⟩ := hc.parse_write h.size h.write
  exact ⟨hparse, hlen ▸ h.fits⟩

theorem ne_nil (h : c.Fits m maxRecvLen) (hc : c.Lawful) (hne : m ≠ c.new) :
    c.writeTo m ≠ [] := by
  intro hnil
  obtain ⟨hparse, -⟩ := h.parse hc
  rw [hnil, parseFromBytes, mergeFrom_nil] at hparse
  obtain ⟨m', hnew, hparse⟩ := bind_eq_ok.1 hparse
  cases hnew
  split_ifs at hparse
  cases hparse
  exact hne rfl

end Protobuf.Codec.Fits

end

namespace XStackRpc

section Sample

theorem leb128_stops : @UnsignedVarint.Stops leb128 := by
  refine @UnsignedVarint.Stops.mk leb128 leb128_lawful fun n s hs hne => ?_
  obtain ⟨e, s', hread⟩ := Varint.readLoop_short ⟨.ioError "unexpected end of file",
    .unsignedVarint "too many bytes", .unsignedVarint "not minimal"⟩ hs hne true
  refine ⟨e, s', ?_⟩
  show (Except.map _ (Varint.readLoop _ 10 true s).1, (Varint.readLoop _ 10 true s).2) = _
  rw [hread, Except.map]

end Sample

end XStackRpc

end XStack
