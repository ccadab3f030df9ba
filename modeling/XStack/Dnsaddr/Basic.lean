import XStack.Multiaddr
import XStack.Switch.Connect

/-!
# Name resolution

`DnsAddr` resolves the names in a multiaddress before it dials.  `dns_lookup` scans the components
of an address: a `dns`, `dns4` or `dns6` component is replaced by each IP address of its name, a
`dnsaddr` component ends the scan and adds the multiaddresses that the TXT records of its name list.
`lookup` repeats this on the results that contain names themselves.

The name servers are third-party code, and so is the text format of multiaddresses: `DnsLookup` and
`MultiaddrText`.

## Main definitions

* `dnsLookup` : one scan.
* `DnsAddr.lookup`, `DnsAddr.connect` : the code.
-/

namespace XStack

/-- The text format of multiaddresses. -/
class MultiaddrText where
  /-- `Multiaddr::from_str`. -/
  fromStr : String → Except Error Multiaddr
  /-- `Multiaddr::to_string`. -/
  toString : Multiaddr → String

/-- `DnsLookup`: what the name servers answer. -/
structure DnsLookup where
  /-- `DnsLookup::lookup_ip`. -/
  lookupIp : String → Except Error (List IpAddr)
  /-- `DnsLookup::lookup_txt`. -/
  lookupTxt : String → Except Error (List String)

/-- What follows `dnsaddr=` in a TXT record. -/
def dnsaddrText (txt : String) : Option String :=
  match txt.toList with
  | 'd' :: 'n' :: 's' :: 'a' :: 'd' :: 'd' :: 'r' :: '=' :: text => some (String.ofList text)
  | _ => none

/-- The stacks that have been built so far, after a name has been resolved. -/
def pushAddrs (built : List Multiaddr) (addrs : List IpAddr) : List Multiaddr :=
  addrs.flatMap fun addr =>
    if built.isEmpty then [.ofIp addr] else built.map fun stack => stack ++ .ofIp addr

variable [MultiaddrText]

/-- The multiaddresses listed by TXT records; records of another kind are skipped. -/
def parseRecords : List String → Except Error (List Multiaddr)
  | [] => .ok []
  | txt :: txts =>
    match dnsaddrText txt with
    | some text => do
      let addr ← MultiaddrText.fromStr text
      let addrs ← parseRecords txts
      return addr :: addrs
    | none => parseRecords txts

/-- The loop of `dns_lookup` over the components; `built` are the stacks so far. -/
def dnsScan (lookup : DnsLookup) : List Protocol → List Multiaddr → Except Error (List Multiaddr)
  | [], built => .ok built
  | .dns name :: rest, built | .dns4 name :: rest, built | .dns6 name :: rest, built => do
    let addrs ← lookup.lookupIp name
    dnsScan lookup rest (pushAddrs built addrs)
  | .dnsaddr name :: _, built => do
    let txt ← lookup.lookupTxt ("_dnsaddr." ++ name)
    let addrs ← parseRecords txt
    return built ++ addrs
  | protocol :: rest, built => dnsScan lookup rest (built.map fun stack => stack ++ [protocol])

/-- `dns_lookup`. -/
def dnsLookup (lookup : DnsLookup) (addr : Multiaddr) : Except Error (List Multiaddr) :=
  dnsScan lookup addr []

/-- `DnsAddr`. -/
structure DnsAddr where
  /-- The name servers. -/
  dns : DnsLookup
  /-- The number of rounds after the first. -/
  maxDepth : ℕ

namespace DnsAddr

/-- `DnsAddr::new`. -/
def new (dns : DnsLookup) : DnsAddr := ⟨dns, 10⟩

/-- `DnsAddr::multiaddr_hint`. -/
def multiaddrHint (addr : Multiaddr) : Bool := addr.isDnsaddrTransport

/-- `dns_lookup` with the timer of `lookup`, which may fire before it is done. -/
def dnsLookupTimeout (self : DnsAddr) (late : Bool) (addr : Multiaddr) :
    Except Error (List Multiaddr) :=
  if late then .error .timeout else dnsLookup self.dns addr

/-- The scans of one round; `late` says which of them their timers end. -/
def lookupRound (self : DnsAddr) (late : Multiaddr → Bool) :
    List Multiaddr → Except Error (List Multiaddr)
  | [] => .ok []
  | addr :: dnsaddrs => do
    let raddrs ← self.dnsLookupTimeout (late addr) addr
    let cached ← self.lookupRound late dnsaddrs
    return raddrs ++ cached

/-- The rounds of `lookup`, of which `left` are left; `depth` counts them. -/
def lookupRounds (self : DnsAddr) (late : ℕ → Multiaddr → Bool) :
    (left depth : ℕ) → (dnsaddrs parsed : List Multiaddr) → Except Error (List Multiaddr)
  | 0, _, _, parsed => .ok parsed
  | left + 1, depth, dnsaddrs, parsed =>
    if dnsaddrs.isEmpty then .ok parsed
    else do
      let cached ← self.lookupRound (late depth) dnsaddrs
      self.lookupRounds late left (depth + 1) (cached.filter multiaddrHint)
        (parsed ++ cached.filter fun addr => !multiaddrHint addr)

/-- `DnsAddr::lookup`. -/
def lookup (self : DnsAddr) (late : ℕ → Multiaddr → Bool) (raddr : Multiaddr) :
    Except Error (List Multiaddr) := self.lookupRounds late (self.maxDepth + 1) 0 [raddr] []

variable [Libp2p]

/-- `DnsAddr::connect`. -/
def connect (self : DnsAddr) (ops : SwitchOptions) (late : ℕ → Multiaddr → Bool)
    (shuffle : Shuffle Multiaddr) (attempt : ℕ → Multiaddr → Attempt) (timing : ℕ → Timing)
    (raddr : Multiaddr) : SwitchM P2pConn := do
  Async.await
  let raddrs ← Async.ofExcept (self.lookup late raddr)
  if raddrs.isEmpty then
    Async.fail (.ioError ("Can't resolve raddr " ++ MultiaddrText.toString raddr))
  else transportConnectAny ops attempt timing 0 (shuffle.run raddrs) none

end DnsAddr

end XStack
