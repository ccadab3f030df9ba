import XStack.Data.Except
import XStack.Data.Varint
import XStack.Ed25519
import XStack.Rpc.Basic

/-!
# The framing of messages

What is sent message by message is received message by message, whatever chunks it arrives in; a
message that is too long is refused before its body is read; and the receiving halves agree on every
stream.

## Main definitions

* `XStackRpc.recvBody` : what the receiving halves have in common, the body of the next message.

## Main results

* `XStackRpc.recvBody_append`, `XStackRpc.recvBody_same` : the body is the one that was sent, in any
  chunks.
* `XStackRpc.rpc_framing`.
-/

namespace XStack

namespace XStackRpc

theorem throw_apply {α : Type} (e : Error) (s : RpcStream) : (throw e : Rpc α) s = .error e s := rfl

theorem ofExcept_eq_ok {α : Type} {r : Except Error α} {a : α} {s s' : RpcStream} :
    ofExcept r s = .ok a s' ↔ r = .ok a ∧ s = s' := by
  rcases r with e | a' <;> simp [ofExcept]

variable [UnsignedVarint]

/-- The body of the next message, which is refused if it is longer than `maxLen`: what the receiving
halves have in common. -/
def recvBody (maxLen : UInt64) : Rpc (List UInt8) := do
  let bodyLen ← readUsize
  if maxLen < bodyLen then throw (.overflow maxLen.toNat)
  else
    newBuf bodyLen
    readExact bodyLen

variable {maxLen n : UInt64} {s s' t : RpcStream} {incoming : ByteStream Error}

theorem readUsize_ok (h : UnsignedVarint.readUsize s.incoming = (.ok n, incoming)) :
    readUsize s = .ok n { s with incoming := incoming } := by
  rw [readUsize, h, received]

theorem recvBody_fits (h : UnsignedVarint.readUsize s.incoming = (.ok n, incoming))
    (hle : ¬ maxLen < n) :
    recvBody maxLen s =
      readExact n { s with incoming := incoming, allocated := s.allocated ++ [n] } := by
  rw [recvBody, run_bind_ok (readUsize_ok h), if_neg hle]
  rfl

/-- A receiving half: a message whose prefix is `len` is refused with `refusal len`. -/
def receive {α : Type} (refusal : UInt64 → ℕ) (maxLen : UInt64)
    (parse : List UInt8 → Except Error α) : Rpc α := do
  let bodyLen ← readUsize
  if maxLen < bodyLen then throw (.overflow (refusal bodyLen))
  else
    newBuf bodyLen
    let buf ← readExact bodyLen
    ofExcept (parse buf)

section Receive

variable {α : Type} {refusal : UInt64 → ℕ} {parse : List UInt8 → Except Error α}

/-- **A message that is too long is refused**: its prefix has been read, and no buffer has been
allocated. -/
theorem receive_refuses (h : UnsignedVarint.readUsize s.incoming = (.ok n, incoming))
    (hlong : maxLen < n) :
    receive refusal maxLen parse s =
      .error (.overflow (refusal n)) { s with incoming := incoming } := by
  rw [receive, run_bind_ok (readUsize_ok h), if_pos hlong]
  rfl

/-- All receiving halves get the same body from a stream. -/
theorem receive_eq_ok {x : α} :
    receive refusal maxLen parse s = .ok x s' ↔
      ∃ body, recvBody maxLen s = .ok body s' ∧ parse body = .ok x := by
  rcases h : UnsignedVarint.readUsize s.incoming with ⟨e | n, incoming⟩
  · have hread : readUsize s = .error e { s with incoming := incoming } := by
      rw [readUsize, h, received]
    rw [receive, run_bind_error hread, recvBody, run_bind_error hread]
    simp
  · by_cases hlong : maxLen < n
    · rw [receive_refuses h hlong, recvBody, run_bind_ok (readUsize_ok h), if_pos hlong]
      simp [throw_apply]
    · rw [recvBody_fits h hlong, receive, run_bind_ok (readUsize_ok h), if_neg hlong]
      have hbuf : newBuf n { s with incoming := incoming } =
        .ok () { s with incoming := incoming, allocated := s.allocated ++ [n] } := rfl
      rw [run_bind_ok hbuf, run_bind_eq_ok]
      constructor
      · rintro ⟨body, s₁, hbody, hparse⟩
        obtain ⟨hx, rfl⟩ := ofExcept_eq_ok.1 hparse
        exact ⟨body, hbody, hx⟩
      · rintro ⟨body, hbody, hparse⟩
        exact ⟨body, s', hbody, ofExcept_eq_ok.2 ⟨hparse, rfl⟩⟩

end Receive

/-! ### The halves of the source -/

section Halves

variable {M : Type} [Message M]

theorem xstackRecv_eq :
    (xstackRecv maxLen : Rpc M) = receive (fun _ => maxLen.toNat) maxLen Message.parseFromBytes :=
  rfl

theorem xstackCall_eq (message : M) :
    xstackCall message maxLen = (do
      xstackSend message
      receive (fun _ => maxLen.toNat) maxLen Message.parseFromBytes) := rfl

/-- `identity_response` sends its message as `xstack_send` does. -/
theorem identityResponse_eq [Message Identity] (identity : Identity) :
    identityResponse identity = xstackSend identity := rfl

theorem autonatRequest_eq (message : M) :
    autonatRequest message maxLen = (do
      xstackSend message
      receive UInt64.toNat maxLen Message.parseFromBytes) := by
  rw [xstackSend, bind_assoc]
  simp only [bind_assoc]
  rfl

end Halves

/-! ### What is sent is received -/

/-- **A message whose body has been sent is received**, with its prefix and its body taken off the
stream, in whatever chunks they have come. -/
theorem recvBody_append [UnsignedVarint.Lawful] {body rest : List UInt8}
    (hfits : body.length ≤ maxLen.toNat)
    (hs : s.incoming.bytes = UnsignedVarint.encodeUsize (.ofNat body.length) ++ body ++ rest) :
    ∃ s', recvBody maxLen s = .ok body s' ∧ s'.incoming.bytes = rest := by
  have hlen : (UInt64.ofNat body.length).toNat = body.length :=
    UInt64.toNat_ofNat_of_lt' (Nat.lt_of_le_of_lt hfits maxLen.toNat_lt)
  rw [List.append_assoc] at hs
  obtain ⟨incoming, hread, hincoming, -⟩ := UnsignedVarint.Lawful.read_encode _ _ _ hs
  have hle : ¬ maxLen < UInt64.ofNat body.length := by
    rw [UInt64.lt_iff_toNat_lt, hlen]
    exact Nat.not_lt_of_le hfits
  obtain ⟨incoming', hexact, hrest, -⟩ := ByteStream.readExact_append
    (.ioError "unexpected end of file") hincoming
  refine ⟨{ s with incoming := incoming', allocated := s.allocated ++ [.ofNat body.length] }, ?_,
    hrest⟩
  rw [recvBody_fits hread hle, readExact, hlen]
  dsimp only
  rw [hexact, received]

/-- The body of a message does not depend on the chunks. -/
theorem recvBody_same [UnsignedVarint.Lawful] {body : List UInt8}
    (hst : s.incoming.Same t.incoming) (hs : recvBody maxLen s = .ok body s') :
    ∃ t', recvBody maxLen t = .ok body t' ∧ s'.incoming.Same t'.incoming := by
  obtain ⟨hlength, hrest⟩ := UnsignedVarint.Lawful.read_same _ _ hst
  rcases hread : UnsignedVarint.readUsize s.incoming with ⟨e | n, incoming⟩
  · have herror : readUsize s = .error e { s with incoming := incoming } := by
      rw [readUsize, hread, received]
    rw [recvBody, run_bind_error herror] at hs
    cases hs
  · -- both streams have the same prefix
    rcases hread' : UnsignedVarint.readUsize t.incoming with ⟨r, incoming'⟩
    rw [hread, hread'] at hlength hrest
    subst hlength
    by_cases hlong : maxLen < n
    · rw [recvBody, run_bind_ok (readUsize_ok hread), if_pos hlong] at hs
      cases hs
    · rw [recvBody_fits hread hlong, readExact] at hs
      rw [recvBody_fits hread' hlong, readExact]
      dsimp only at hs hrest ⊢
      obtain ⟨hbody, hleft⟩ := hrest.readExact (.ioError "unexpected end of file") n.toNat
      rcases hexact : incoming.readExact (.ioError "unexpected end of file") n.toNat with
        ⟨e | body', left⟩
      · rw [hexact, received] at hs
        cases hs
      · rcases hexact' : incoming'.readExact (.ioError "unexpected end of file") n.toNat with
          ⟨r, left'⟩
        rw [hexact, hexact'] at hbody hleft
        subst hbody
        rw [hexact, received] at hs
        cases hs
        refine ⟨{ t with incoming := left', allocated := t.allocated ++ [n] }, ?_, hleft⟩
        rw [hexact', received]

section Messages

variable {M : Type} [Message M]

/-- The bytes of some bodies with their prefixes. -/
def frames (bodies : List (List UInt8)) : List UInt8 :=
  bodies.flatMap fun body => UnsignedVarint.encodeUsize (.ofNat body.length) ++ body

theorem outgoing_of_xstackSend {message : M} (h : xstackSend message s = .ok () s') :
    ∃ body, Message.writeToBytes message = .ok body ∧
      s'.outgoing = s.outgoing ++ frames [body] := by
  obtain ⟨body, s₁, hwritten, hwrite⟩ := run_bind_eq_ok.1 h
  obtain ⟨hbody, rfl⟩ := ofExcept_eq_ok.1 hwritten
  obtain ⟨_, s₂, hlength, hbytes⟩ := run_bind_eq_ok.1 hwrite
  refine ⟨body, hbody, ?_⟩
  unfold writeAll at hlength hbytes
  split at hlength
  · cases hlength
    split at hbytes
    · cases hbytes
      simp [frames]
    · cases hbytes
  · cases hlength

theorem outgoing_of_sendAll {ms : List M} (h : sendAll ms s = .ok () s') :
    ∃ bodies, List.Forall₂ (fun m body => Message.writeToBytes m = .ok body) ms bodies ∧
      s'.outgoing = s.outgoing ++ frames bodies := by
  induction ms generalizing s with
  | nil =>
    cases h
    exact ⟨[], .nil, (List.append_nil _).symm⟩
  | cons m ms ih =>
    obtain ⟨_, s₁, hm, hms⟩ := run_bind_eq_ok.1 h
    obtain ⟨body, hbody, hout⟩ := outgoing_of_xstackSend hm
    obtain ⟨bodies, hbodies, hout'⟩ := ih hms
    refine ⟨body :: bodies, .cons hbody hbodies, ?_⟩
    rw [hout', hout]
    simp [frames]

/-- **Messages are received as they were sent.** -/
theorem recvAll_frames [UnsignedVarint.Lawful] [Message.Lawful M] {ms : List M}
    {bodies : List (List UInt8)} {rest : List UInt8}
    (hbodies : List.Forall₂ (fun m body => Message.writeToBytes m = .ok body) ms bodies)
    (hfits : ∀ m ∈ ms, ∀ bytes, Message.writeToBytes m = .ok bytes → bytes.length ≤ maxLen.toNat)
    (hs : s.incoming.bytes = frames bodies ++ rest) :
    ∃ s', recvAll maxLen ms.length s = .ok ms s' ∧ s'.incoming.bytes = rest := by
  induction hbodies generalizing s with
  | nil => exact ⟨s, rfl, hs⟩
  | @cons m body ms bodies hbody _ ih =>
    have hnext : s.incoming.bytes =
        UnsignedVarint.encodeUsize (.ofNat body.length) ++ body ++ (frames bodies ++ rest) := by
      rw [hs]
      simp [frames]
    obtain ⟨s₁, hrecv, hrest⟩ := recvBody_append (hfits m List.mem_cons_self body hbody) hnext
    have hm : (xstackRecv maxLen : Rpc M) s = .ok m s₁ := by
      rw [xstackRecv_eq]
      exact receive_eq_ok.2 ⟨body, hrecv, Message.Lawful.parse_write m body hbody⟩
    obtain ⟨s', hms, hdone⟩ := ih (fun m' hmem => hfits m' (List.mem_cons_of_mem _ hmem)) hrest
    refine ⟨s', ?_, hdone⟩
    rw [List.length_cons, recvAll, run_bind_ok hm, run_bind_ok hms]
    rfl

/-- **The framing of messages.**  Messages sent one after the other are received one after the
other, in any chunks, and nothing else is taken off the stream, if they are not too long.  A message
that is too long is refused when its prefix has been read, without a buffer for its body.  And on
every stream the receiving halves get the same body, whatever the chunks. -/
theorem rpc_framing [UnsignedVarint.Lawful] [Message.Lawful M] [Message Identity]
    (maxLen : UInt64) :
    (∀ (ms : List M) (w w' r : RpcStream) (written rest : List UInt8),
      sendAll ms w = .ok () w' → w'.outgoing = w.outgoing ++ written →
      (∀ m ∈ ms, ∀ bytes, Message.writeToBytes m = .ok bytes → bytes.length ≤ maxLen.toNat) →
      r.incoming.bytes = written ++ rest →
      ∃ r', recvAll maxLen ms.length r = .ok ms r' ∧ r'.incoming.bytes = rest) ∧
    (∀ (r : RpcStream) (n : UInt64) (incoming : ByteStream Error),
      UnsignedVarint.readUsize r.incoming = (.ok n, incoming) → maxLen < n →
      (xstackRecv maxLen : Rpc M) r =
        .error (.overflow maxLen.toNat) { r with incoming := incoming } ∧
      xstackRecvIdentity maxLen r = .error (.overflow n.toNat) { r with incoming := incoming } ∧
      ∀ (m : M) (w : RpcStream), xstackSend m w = .ok () r →
        xstackCall m maxLen w =
          .error (.overflow maxLen.toNat) { r with incoming := incoming } ∧
        autonatRequest m maxLen w =
          .error (.overflow n.toNat) { r with incoming := incoming }) ∧
    (∀ r r' : RpcStream,
      (∀ x : M, xstackRecv maxLen r = .ok x r' ↔
        ∃ body, recvBody maxLen r = .ok body r' ∧ Message.parseFromBytes body = .ok x) ∧
      (∀ x : Identity, xstackRecvIdentity maxLen r = .ok x r' ↔
        ∃ body, recvBody maxLen r = .ok body r' ∧ Message.parseFromBytes body = .ok x) ∧
      ∀ (m x : M) (w : RpcStream), xstackSend m w = .ok () r →
        (xstackCall m maxLen w = .ok x r' ↔
          ∃ body, recvBody maxLen r = .ok body r' ∧ Message.parseFromBytes body = .ok x) ∧
        (autonatRequest m maxLen w = .ok x r' ↔
          ∃ body, recvBody maxLen r = .ok body r' ∧ Message.parseFromBytes body = .ok x)) ∧
    ∀ (r r' t : RpcStream) (body : List UInt8), r.incoming.Same t.incoming →
      recvBody maxLen r = .ok body r' →
      ∃ t', recvBody maxLen t = .ok body t' ∧ r'.incoming.Same t'.incoming := by
  refine ⟨fun ms w w' r written rest hsend hwritten hfits hr => ?_,
    fun r n incoming hread hlong => ⟨receive_refuses hread hlong, receive_refuses hread hlong,
      fun m w hsend => ⟨?_, ?_⟩⟩,
    fun r r' => ⟨fun x => receive_eq_ok, fun x => receive_eq_ok, fun m x w hsend => ⟨?_, ?_⟩⟩,
    fun r r' t body hrt hr => recvBody_same hrt hr⟩
  · obtain ⟨bodies, hbodies, hout⟩ := outgoing_of_sendAll hsend
    have hframes : written = frames bodies := List.append_cancel_left (hwritten.symm.trans hout)
    exact recvAll_frames hbodies hfits (hframes ▸ hr)
  · rw [xstackCall_eq, run_bind_ok hsend]
    exact receive_refuses hread hlong
  · rw [autonatRequest_eq, run_bind_ok hsend]
    exact receive_refuses hread hlong
  · rw [xstackCall_eq, run_bind_ok hsend]
    exact receive_eq_ok
  · rw [autonatRequest_eq, run_bind_ok hsend]
    exact receive_eq_ok

end Messages

end XStackRpc

/-! ### Two messages -/

namespace XStackRpc

section Sample

/-- The encoding of lengths in at most ten bytes. -/
@[reducible] def leb128 : UnsignedVarint where
  encodeUsize n := Varint.encode 10 n.toNat
  readUsize s :=
    let (n, s) := Varint.readLoop ⟨.ioError "unexpected end of file",
      .unsignedVarint "too many bytes", .unsignedVarint "not minimal"⟩ 10 true s
    (n.map .ofNat, s)

theorem leb128_lawful : @UnsignedVarint.Lawful leb128 := by
  refine @UnsignedVarint.Lawful.mk leb128 (fun n s rest h => ?_) fun s t h => ?_
  · have hn : n.toNat < 128 ^ (9 + 1) := Nat.lt_of_lt_of_le n.toNat_lt (by decide)
    obtain ⟨s', hread, hrest, hfail⟩ := Varint.readLoop_encode _ hn (.inl rfl) h
    refine ⟨s', ?_, hrest, hfail⟩
    show (Except.map _ (Varint.readLoop _ 10 true s).1, (Varint.readLoop _ 10 true s).2) = _
    rw [hread, Except.map, UInt64.ofNat_toNat]
  · obtain ⟨hvalue, hrest⟩ := Varint.readLoop_same _ h 10 true
    exact ⟨congrArg (Except.map _) hvalue, hrest⟩

/-- A message of the autonat protocol that has nothing but its type. -/
inductive DialMessage where
  | dial
  | dialResponse
  deriving DecidableEq

/-- The encoding of these messages. -/
@[reducible] def dialMessage : Message DialMessage where
  writeToBytes
    | .dial => .ok [0x08, 0x00]
    | .dialResponse => .ok [0x08, 0x01]
  parseFromBytes bytes :=
    if bytes = [0x08, 0x00] then .ok .dial
    else if bytes = [0x08, 0x01] then .ok .dialResponse
    else .error (.protobufError "not a type")

theorem dialMessage_lawful : @Message.Lawful DialMessage dialMessage := by
  refine @Message.Lawful.mk _ dialMessage fun m bytes h => ?_
  cases m <;> cases h <;> rfl

/-- Identify messages that carry nothing but a key. -/
@[reducible] def keyMessage : Message Identity where
  writeToBytes identity :=
    .ok (0x0a :: .ofNat identity.publicKey.length :: identity.publicKey)
  parseFromBytes := Libp2p.ed25519.parseIdentity

/-- Two messages and a byte that follows them, in three chunks. -/
def twoMessages : ByteStream Error :=
  ⟨[⟨[0x02, 0x08], by simp⟩, ⟨[0x00], by simp⟩, ⟨[0x02, 0x08, 0x01, 0xff], by simp⟩], none⟩

/-- Two messages are received, and the byte after them is not. -/
theorem two_messages_received : ∃ r',
    @recvAll leb128 DialMessage dialMessage 4 2 ⟨twoMessages, [], none, []⟩ =
      .ok [.dial, .dialResponse] r' ∧ r'.incoming.bytes = [0xff] :=
  (@rpc_framing leb128 DialMessage dialMessage leb128_lawful dialMessage_lawful keyMessage 4).1
    [.dial, .dialResponse] ⟨twoMessages, [], none, []⟩
    ⟨twoMessages, [0x02, 0x08, 0x00, 0x02, 0x08, 0x01], none, []⟩
    ⟨twoMessages, [], none, []⟩ [0x02, 0x08, 0x00, 0x02, 0x08, 0x01] [0xff] rfl rfl
    (by
      intro m _ bytes h
      cases m <;> cases h <;> decide) rfl

end Sample

end XStackRpc

end XStack
