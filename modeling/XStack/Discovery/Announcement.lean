import Mathlib.Data.Nat.Digits.Defs
import XStack.Book.NatPeers
import XStack.Data.Split
import XStack.Discovery.Basic
import XStack.Dnsaddr.Basic
import XStack.Ed25519

/-!
# Announcing addresses

A switch answers a query for `_p2p._udp.local` with a TXT record that has one string for each of its
addresses.  The receiver joins the strings of a record before it splits them at `dnsaddr=`, drops
what is not an address, and groups the rest by the peer ids at their ends.  All the same, it reads
exactly what has been announced (`mdns_round_trip`), since the text of a peer id cannot contain the
end of the marker.

## Main definitions

* `MdnsProtocol.handleRequest` : the code of the sender; the one of the receiver is
  `handleResponse`.
* `ReadsBack` : an address is read back from its text.

## Main results

* `handleRequest_run` : what is announced.
* `handleResponse_announcement` : what is read from it.
-/

namespace XStack

open MultiaddrWithP2p (withP2p)

/-- `ProtoError`: a domain name is not accepted. -/
structure ProtoError where
  msg : String
  deriving DecidableEq, Repr

/-- The domain names of the DNS library. -/
class DnsNames where
  /-- `Name`. -/
  Name : Type
  /-- `Name::from_utf8`. -/
  fromUtf8 : String → Except ProtoError Name
  /-- `Name::from_ascii`. -/
  fromAscii : String → Except ProtoError Name

open DnsNames (Name)

/-- What is documented of the text of a multiaddress: it is empty if there is no component, and a
peer id comes as its base58 encoding at the end of it. -/
class MultiaddrText.Lawful [MultiaddrText] : Prop where
  nil : MultiaddrText.toString [] = ""
  p2p : ∀ (addr : Multiaddr) (id : PeerId), ∃ base58 : String,
    MultiaddrText.toString (addr ++ [.p2p id]) =
      MultiaddrText.toString addr ++ ("/p2p/" ++ base58) ∧ '=' ∉ base58.toList

/-- `QNAME`. -/
def MdnsProtocol.qname : String := "_p2p._udp.local"

open MdnsProtocol (qname)

/-- `String::into_bytes`. -/
def intoBytes (s : String) : List UInt8 := s.toUTF8.data.toList

theorem decodeTxt_intoBytes (strings : List String) :
    decodeTxt (strings.map intoBytes) = .ok (String.join strings) := by
  have hread : ∀ s ∈ strings,
      okOr MdnsError.utf8Error (String.fromUTF8? ⟨(intoBytes s).toArray⟩) = .ok s := by
    intro s _
    rw [okOr_ok_iff, intoBytes, Array.toArray_toList, String.fromUTF8?,
      dif_pos (show s.toUTF8.IsValidUTF8 from s.isValidUTF8)]
    rfl
  have hmap : strings.mapM ((fun x => okOr MdnsError.utf8Error (String.fromUTF8? ⟨x.toArray⟩)) ∘
      intoBytes) = .ok (strings.map fun s => s) := mapM_ok_map hread
  rw [decodeTxt, List.mapM_map, hmap, List.map_id']
  rfl

section

variable [DnsNames]

/-- `RData`: the data of a resource record. -/
inductive RData where
  | ptr (name : Name)
  | txt (strings : List (List UInt8))
  /-- The data of another kind of record. -/
  | other (type : UInt16) (data : List UInt8)

/-- `Record`. -/
structure Record where
  /-- `name_labels`. -/
  name : Name
  /-- `ttl`, in seconds. -/
  ttl : UInt32
  /-- `rdata`. -/
  data : Option RData

/-- `Record::from_rdata`. -/
def Record.fromRdata (name : Name) (ttl : UInt32) (rdata : RData) : Record :=
  ⟨name, ttl, some rdata⟩

/-- `futures_dnsv2::message::MessageType`. -/
inductive MdnsMessageType where
  | query
  | response
  deriving DecidableEq, Repr

/-- `futures_dnsv2::message::Message`. -/
structure MdnsMessage where
  id : UInt16
  messageType : MdnsMessageType
  answers : List Record
  additionals : List Record

/-- The data of the additional records, as far as they are TXT records. -/
def MdnsMessage.txts (message : MdnsMessage) : List (Option (List (List UInt8))) :=
  message.additionals.map fun additional =>
    match additional.data with
    | some (.txt record) => some record
    | _ => none

/-- The code of the mdns crate that builds a message. -/
abbrev MdnsM := ExceptT ProtoError (Except Panic)

variable [MultiaddrText] [MultiaddrWithP2p]

/-- The string for an address in an announcement. -/
def dnsaddrString (localId : PeerId) (addr : Multiaddr) : Except Panic String :=
  match withP2p addr localId with
  | .ok addr => .ok ("dnsaddr=" ++ MultiaddrText.toString addr)
  | .error _ => .error .unwrap

/-- `MdnsProtocol::handle_request`, on a switch with these local addresses; `uuid` is the text of
the fresh uuid. -/
def MdnsProtocol.handleRequest (localId : PeerId) (localAddrs : List Multiaddr)
    (request : MdnsMessage) (intervals : Duration) (uuid : String) : MdnsM MdnsMessage := do
  let name ← MonadExcept.ofExcept (DnsNames.fromUtf8 (uuid ++ "." ++ qname))
  let answerName ← MonadExcept.ofExcept (DnsNames.fromAscii qname)
  let ttl := UInt32.ofNat (intervals / 1000000000)
  let addrs ← liftM (localAddrs.mapM (dnsaddrString localId))
  return {
    id := request.id
    messageType := .response
    answers := [.fromRdata answerName ttl (.ptr name)]
    additionals := [.fromRdata name ttl (.txt (addrs.map intoBytes))] }

end

/-! ### The sender -/

section

variable [MultiaddrText] {localId : PeerId} {localAddrs : List Multiaddr}

/-- The text of an announced address. -/
def announcedText (localId : PeerId) (addr : Multiaddr) : String :=
  MultiaddrText.toString (addr ++ [.p2p localId])

/-- The strings of an announcement. -/
def announcement (localId : PeerId) (localAddrs : List Multiaddr) : List String :=
  (localAddrs.map (announcedText localId)).map fun text => "dnsaddr=" ++ text

/-- **What is announced**: the addresses with the local id at their ends, in their order.  The
answer is not built only if a name is not accepted. -/
theorem handleRequest_run [DnsNames] [MultiaddrWithP2p] [MultiaddrWithP2p.Lawful]
    (hp2p : ∀ addr ∈ localAddrs, ∀ id, addr.getLast? ≠ some (.p2p id)) (request : MdnsMessage)
    (intervals : Duration) (uuid : String) : ∃ answer,
      (MdnsProtocol.handleRequest localId localAddrs request intervals uuid).run = .ok answer ∧
      (∀ name answerName, DnsNames.fromUtf8 (uuid ++ "." ++ qname) = .ok name →
        DnsNames.fromAscii qname = .ok answerName → ∃ message, answer = .ok message) ∧
      ∀ message, answer = .ok message →
        message.txts = [some ((announcement localId localAddrs).map intoBytes)] := by
  have hstrings : localAddrs.mapM (dnsaddrString localId) =
      .ok (announcement localId localAddrs) := by
    rw [announcement, List.map_map]
    refine mapM_ok_map fun addr hmem => ?_
    rw [dnsaddrString, MultiaddrWithP2p.Lawful.append addr localId (hp2p addr hmem)]
    rfl
  rw [MdnsProtocol.handleRequest, hstrings]
  cases hname : DnsNames.fromUtf8 (uuid ++ "." ++ qname) with
  | error err => exact ⟨.error err, rfl, nofun, nofun⟩
  | ok name =>
    cases hanswer : DnsNames.fromAscii qname with
    | error err => exact ⟨.error err, rfl, nofun, nofun⟩
    | ok answerName =>
      refine ⟨.ok _, rfl, fun _ _ _ _ => ⟨_, rfl⟩, ?_⟩
      rintro message ⟨⟩
      rfl

/-! ### The receiver -/

/-- The text of a peer id does not bring the marker into the text of an address. -/
theorem marker_not_infix [MultiaddrText.Lawful] {addr : Multiaddr}
    (h : ¬ "dnsaddr=".toList <:+: (MultiaddrText.toString addr).toList) :
    ¬ "dnsaddr=".toList <:+: (announcedText localId addr).toList := by
  obtain ⟨base58, htext, hbase58⟩ := MultiaddrText.Lawful.p2p addr localId
  rw [announcedText, htext, String.toList_append, String.toList_append]
  intro hin
  -- the marker has no slash
  rcases infix_of_not_mem (by decide) hin with hin | hin
  · exact h hin
  · have hmem : '=' ∈ 'p' :: '2' :: 'p' :: '/' :: base58.toList := hin.subset (by decide)
    simp [hbase58] at hmem

/-- The address is read back from its text. -/
def ReadsBack [PeerText] (addr : Multiaddr) : Prop :=
  PeerText.fromStr (MultiaddrText.toString addr) = .ok addr

section Announced

variable [MultiaddrText.Lawful]
  (hmarker : ∀ addr ∈ localAddrs, ¬ "dnsaddr=".toList <:+: (MultiaddrText.toString addr).toList)

include hmarker

theorem splitOn_announcement :
    (String.join (announcement localId localAddrs)).splitOn "dnsaddr=" =
      "" :: localAddrs.map (announcedText localId) := by
  have hnone : ∀ text ∈ localAddrs.map (announcedText localId),
      ¬ "dnsaddr=".toList <:+: text.toList := by
    intro text hmem
    obtain ⟨addr, haddr, rfl⟩ := List.mem_map.1 hmem
    exact marker_not_infix (hmarker addr haddr)
  have hsep : "dnsaddr=".toList = "dnsaddr".toList ++ ['='] := by decide
  exact splitOn_join hsep (by decide) hnone

variable [PeerText]
  (hread : ∀ addr ∈ [] :: localAddrs.map (· ++ [.p2p localId]), ReadsBack addr)

include hread

/-- The addresses of an announcement; the text before the first marker is the empty address. -/
theorem txtAddrs_announcement :
    txtAddrs (String.join (announcement localId localAddrs)) =
      [] :: localAddrs.map (· ++ [.p2p localId]) := by
  have htexts : "" :: localAddrs.map (announcedText localId) =
      ([] :: localAddrs.map (· ++ [.p2p localId])).map MultiaddrText.toString := by
    rw [List.map_cons, List.map_map, MultiaddrText.Lawful.nil]
    rfl
  have hsome : ∀ addr ∈ [] :: localAddrs.map (· ++ [.p2p localId]),
      (PeerText.fromStr (MultiaddrText.toString addr)).toOption = some addr := by
    intro addr hmem
    rw [hread addr hmem]
    rfl
  rw [txtAddrs, splitOn_announcement hmarker, htexts, List.filterMap_map]
  exact (List.filterMap_congr hsome).trans (List.filterMap_some ..)

theorem txtPeers_announcement (hne : localAddrs ≠ []) :
    (txtPeers (String.join (announcement localId localAddrs))).iter = [(localId, localAddrs)] := by
  have hentries : ([] :: localAddrs.map (· ++ [.p2p localId])).filterMap txtEntry =
      localAddrs.map fun addr => (localId, addr) := by
    have hentry : ∀ addr : Multiaddr, txtEntry (addr ++ [.p2p localId]) = some (localId, addr) :=
      fun addr => txtEntry_eq_some_iff.2 ⟨List.getLast?_concat, List.dropLast_concat⟩
    rw [List.filterMap_cons_none rfl, List.filterMap_map]
    simp [hentry]
  rw [txtPeers_eq, txtAddrs_announcement hmarker hread, hentries]
  refine HashMap.iter_eq_singleton ?_ fun id hid => ?_
  · rw [HashMap.get_foldl_push, HashMap.valuesOf_map_self, if_neg hne]
    rfl
  · rw [HashMap.get_foldl_push, HashMap.valuesOf_map_ne hid.symm, if_pos rfl]
    rfl

/-- **What is read**: one entry, with the announced addresses. -/
theorem handleResponse_announcement (hne : localAddrs ≠ [])
    (order : Shuffle (PeerId × List Multiaddr)) :
    handleResponse order [some ((announcement localId localAddrs).map intoBytes)] =
      ([.discovered localId localAddrs], .ok ()) := by
  have hcollected : collected order (txtPeers (String.join (announcement localId localAddrs))) =
      [.discovered localId localAddrs] := by
    rw [collected, txtPeers_announcement hmarker hread hne,
      List.perm_singleton.1 (order.perm [(localId, localAddrs)])]
    rfl
  rw [handleResponse, decodeTxt_intoBytes]
  dsimp only
  rw [hcollected]
  rfl

end Announced

variable [PeerText] [MultiaddrText.Lawful] [DnsNames] [MultiaddrWithP2p]
  [MultiaddrWithP2p.Lawful]

/-- **An announcement is read as it was sent**: the receiver inserts one entry, with the local id of
the sender and its addresses in their order, whatever its peer book is, and the other entries stay
as they are. -/
theorem mdns_round_trip (hne : localAddrs ≠ [])
    (hp2p : ∀ addr ∈ localAddrs, ∀ id, addr.getLast? ≠ some (.p2p id))
    (hmarker : ∀ addr ∈ localAddrs,
      ¬ "dnsaddr=".toList <:+: (MultiaddrText.toString addr).toList)
    (hread : ∀ addr ∈ [] :: localAddrs.map (· ++ [.p2p localId]), ReadsBack addr)
    (request : MdnsMessage) (intervals : Duration) (uuid : String) : ∃ answer,
      (MdnsProtocol.handleRequest localId localAddrs request intervals uuid).run = .ok answer ∧
      (∀ name answerName, DnsNames.fromUtf8 (uuid ++ "." ++ qname) = .ok name →
        DnsNames.fromAscii qname = .ok answerName → ∃ message, answer = .ok message) ∧
      ∀ message, answer = .ok message → ∀ order (book : RawMemoryPeerBook), ∃ info,
        handleResponse order message.txts = ([info], .ok ()) ∧
        info.id = localId ∧ info.addrs = localAddrs ∧
        (book.insertAll [info]).get localId = some info ∧
        ∀ id, id ≠ localId → (book.insertAll [info]).get id = book.get id := by
  obtain ⟨answer, hrun, hbuilt, htxts⟩ := handleRequest_run hp2p request intervals uuid
  refine ⟨answer, hrun, hbuilt, fun message hmessage order book => ?_⟩
  refine ⟨.discovered localId localAddrs, ?_, rfl, rfl, ?_, ?_⟩
  · rw [htxts message hmessage]
    exact handleResponse_announcement hmarker hread hne order
  · exact (book.get_insert _ _).trans (if_pos rfl)
  · intro id hid
    refine RawMemoryPeerBook.get_insertAll_of_ne ?_ book
    simpa [PeerInfo.discovered] using Ne.symm hid

end

section Sample

attribute [local instance] Libp2p.ed25519 MultiaddrWithP2p.documented

/-- The digits of base58. -/
def base58Alphabet : List Char :=
  "123456789ABCDEFGHJKLMNPQRSTUVWXYZabcdefghijkmnopqrstuvwxyz".toList

/-- The base58 encoding of bytes; every leading zero byte is a digit of its own. -/
def base58 (bytes : List UInt8) : String :=
  let digits := Nat.digits 58 (bytes.foldl (fun n byte => n * 256 + byte.toNat) 0)
  let zeros := (bytes.takeWhile fun byte => byte = 0).map fun _ => 0
  .ofList ((zeros ++ digits.reverse).map fun d => base58Alphabet.getD d '1')

theorem equals_not_mem_base58 (bytes : List UInt8) : '=' ∉ (base58 bytes).toList := by
  have hdigit : ∀ d, base58Alphabet.getD d '1' ≠ '=' := by
    intro d
    rw [List.getD_eq_getElem?_getD]
    cases hget : base58Alphabet[d]? with
    | none => decide
    | some c =>
      rintro rfl
      exact absurd (List.mem_of_getElem? hget) (by decide)
  rw [base58, String.toList_ofList, List.mem_map]
  rintro ⟨d, -, hd⟩
  exact hdigit d hd

/-- The text of a component, as far as the addresses below need it. -/
def componentText : Protocol → String
  | .ip4 ip => "/ip4/" ++ ".".intercalate ([24, 16, 8, 0].map fun i =>
      Nat.repr (ip.toNat >>> i % 256))
  | .tcp port => "/tcp/" ++ Nat.repr port.toNat
  | .p2p id => "/p2p/" ++ base58 id.toBytes
  | _ => ""

/-- The addresses of a switch with two listeners, one of them given twice. -/
def listening : List Multiaddr :=
  [[.ip4 0x7f000001, .tcp 4001], [.ip4 0x0a000001, .tcp 4002], [.ip4 0x7f000001, .tcp 4001]]

/-- The text of an address. -/
@[reducible] def MultiaddrText.components : MultiaddrText where
  fromStr _ := .error (.multiaddr "")
  toString addr := String.join (addr.map componentText)

attribute [local instance] MultiaddrText.components

theorem MultiaddrText.components_lawful : MultiaddrText.Lawful where
  nil := rfl
  p2p addr id := by
    have htext : String.join ((addr ++ [Protocol.p2p id]).map componentText) =
        String.join (addr.map componentText) ++ ("/p2p/" ++ base58 id.toBytes) := by
      rw [List.map_append, String.join_append, List.map_singleton, String.join_cons,
        String.join_nil, String.append_empty, componentText]
    exact ⟨base58 id.toBytes, htext, equals_not_mem_base58 _⟩

/-- The third-party function that reads an address, on the texts of these addresses. -/
@[reducible] def PeerText.listening : PeerText where
  fromBytes _ := .error (.identityDecodingError "")
  fromStr text :=
    match ([] :: XStack.listening.map (· ++ [.p2p keyA.toPeerId])).find? fun addr =>
      MultiaddrText.toString addr = text with
    | some addr => .ok addr
    | none => .error (.multiaddr "")

/-- Every text is a domain name. -/
@[reducible] def DnsNames.text : DnsNames := ⟨String, .ok, .ok⟩

attribute [local instance] PeerText.listening DnsNames.text MultiaddrText.components_lawful
  MultiaddrWithP2p.documented_lawful

theorem mdns_round_trip_listening : ∃ message,
    (MdnsProtocol.handleRequest keyA.toPeerId listening ⟨7, .query, [], []⟩ (.new 4 0)
      "67e55044-10b1-426f-9247-bb680e5fe0c8").run = .ok (.ok message) ∧
    ∃ info, handleResponse .id message.txts = ([info], .ok ()) ∧ info.id = keyA.toPeerId ∧
      info.addrs = listening := by
  have hread : ∀ addr ∈ [] :: listening.map (· ++ [.p2p keyA.toPeerId]), ReadsBack addr := by
    unfold ReadsBack
    decide +kernel
  obtain ⟨answer, hrun, hbuilt, hinfos⟩ := mdns_round_trip (by decide)
    (by simp [listening]) (by decide +kernel) hread ⟨7, .query, [], []⟩ (.new 4 0)
    "67e55044-10b1-426f-9247-bb680e5fe0c8"
  obtain ⟨message, rfl⟩ := hbuilt _ _ rfl rfl
  obtain ⟨info, hresponse, hid, haddrs, -⟩ := hinfos message rfl .id .default
  exact ⟨message, hrun, info, hresponse, hid, haddrs⟩

end Sample

end XStack
