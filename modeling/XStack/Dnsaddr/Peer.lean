import XStack.Async.Passes
import XStack.Dnsaddr.Resolution
import XStack.Ed25519

/-!
# Name resolution and the requested peer

The addresses that `lookup` answers are dialled without another look at the address it was asked
for.  Where IP addresses replace names, the `/p2p` suffix is kept.  A `dnsaddr` component ends the
scan of an address, and with it goes the suffix: what the records list is taken as it is, whichever
peer it names.

* `Pinned` : what the name servers say of an address that a round scans keeps it to a peer.
* `lookup_keeps_peer_iff` : `lookup` keeps to a peer if all the addresses it scans are pinned to it.
* `lookup_other_peer` : a record that names another peer is answered, and dialled.
-/

namespace XStack

open Multiaddr

/-- The address ends with `/p2p/id`. -/
def EndsWith (id : PeerId) (addr : Multiaddr) : Prop := addr.getLast? = some (.p2p id)

section

variable [MultiaddrText] {addr : Multiaddr} {id : PeerId}

/-- The name servers keep a scanned address to a peer: the records list no other addresses than
ones that end with the id of the peer or are resolved further, and the part of the address before
its first `dnsaddr` component ends with it too, unless there is no IP address to put in there. -/
structure Pinned (dns : DnsLookup) (id : PeerId) (addr : Multiaddr) : Prop where
  listed : ∀ addr', Lists dns addr addr' → addr'.NameFree → EndsWith id addr'
  kept : HasStack dns addr.beforeDnsaddr → EndsWith id addr.beforeDnsaddr

/-- What a scan yields ends with the id of the peer if the scanned address is pinned to it. -/
theorem pinned_iff {dns : DnsLookup} (h : Answered dns addr) :
    Pinned dns id addr ↔ ∀ addr', Yields dns addr addr' → EndsWith id addr' := by
  obtain ⟨raddrs, hraddrs⟩ := dnsLookup_ok_iff.2 h
  obtain ⟨built, hstacks, hiff⟩ := mem_dnsLookup hraddrs
  constructor
  · rintro hpinned addr' ⟨raddrs', hraddrs', hmem, hfree⟩
    rw [hraddrs] at hraddrs'
    cases hraddrs'
    rcases (hiff addr').1 hmem with hstack | hlists
    · have hhas := hstacks.ne_nil_iff.1 (List.ne_nil_of_mem hstack)
      exact (hstacks.getLast_iff addr' hstack id).2 (hpinned.kept hhas)
    · exact hpinned.listed addr' hlists hfree
  · intro hends
    refine ⟨fun addr' hlists hfree => ?_, fun hhas => ?_⟩
    · exact hends addr' ⟨raddrs, hraddrs, (hiff addr').2 (.inr hlists), hfree⟩
    · obtain ⟨stack, hstack⟩ := List.exists_mem_of_ne_nil built (hstacks.ne_nil_iff.2 hhas)
      have hyields : Yields dns addr stack :=
        ⟨raddrs, hraddrs, (hiff stack).2 (.inl hstack), hstacks.nameFree stack hstack⟩
      exact (hstacks.getLast_iff stack hstack id).1 (hends stack hyields)

variable [Libp2p]

omit [MultiaddrText] in
theorem transportConnectAny_congr {ops : SwitchOptions} {attempt attempt' : ℕ → Multiaddr → Attempt}
    {timing : ℕ → Timing} {raddrs : List Multiaddr} {i : ℕ} {lastError : Option Error}
    (h : ∀ i, ∀ raddr ∈ raddrs, attempt i raddr = attempt' i raddr) :
    transportConnectAny ops attempt timing i raddrs lastError =
      transportConnectAny ops attempt' timing i raddrs lastError := by
  induction raddrs generalizing i lastError with
  | nil => cases lastError <;> rfl
  | cons raddr raddrs ih =>
    have hrest : ∀ i err, transportConnectAny ops attempt timing i raddrs (some err) =
        transportConnectAny ops attempt' timing i raddrs (some err) :=
      fun i err => ih fun j raddr' hmem => h j raddr' (List.mem_cons_of_mem _ hmem)
    simp only [transportConnectAny, h i raddr List.mem_cons_self, hrest]

namespace DnsAddr

/-- `connect` makes no attempts but at addresses that satisfy `P`: what becomes of attempts at other
addresses makes no difference to it. -/
def DialsOnly (self : DnsAddr) (late : ℕ → Multiaddr → Bool) (raddr : Multiaddr)
    (P : Multiaddr → Prop) : Prop :=
  ∀ ops shuffle timing (attempt attempt' : ℕ → Multiaddr → Attempt),
    (∀ i addr, P addr → attempt i addr = attempt' i addr) →
      self.connect ops late shuffle attempt timing raddr =
        self.connect ops late shuffle attempt' timing raddr

theorem dialsOnly_of_lookup {self : DnsAddr} {late : ℕ → Multiaddr → Bool} {raddr : Multiaddr}
    {P : Multiaddr → Prop}
    (h : ∀ addrs, self.lookup late raddr = .ok addrs → ∀ addr ∈ addrs, P addr) :
    self.DialsOnly late raddr P := by
  intro ops shuffle timing attempt attempt' hattempt
  have hloop : ∀ addrs, self.lookup late raddr = .ok addrs →
      transportConnectAny ops attempt timing 0 (shuffle.run addrs) none =
        transportConnectAny ops attempt' timing 0 (shuffle.run addrs) none :=
    fun addrs haddrs => transportConnectAny_congr fun i addr hmem =>
      hattempt i addr (h addrs haddrs addr (shuffle.mem_run.1 hmem))
  refine congrArg (Async.await >>= ·) (funext fun _ => ?_)
  exact Async.ofExcept_bind_congr fun addrs haddrs => by rw [hloop addrs haddrs]

end DnsAddr

/-- **When name resolution keeps the requested peer.**  The addresses that `lookup` answers, and
those that `connect` dials, all end with the id of the peer, if and only if `lookup` fails or all
the addresses that it scans are pinned to the peer. -/
theorem lookup_keeps_peer_iff (self : DnsAddr) (late : ℕ → Multiaddr → Bool) (raddr : Multiaddr)
    (id : PeerId) :
    ((∀ addrs, self.lookup late raddr = .ok addrs → ∀ addr ∈ addrs, EndsWith id addr) ∧
      self.DialsOnly late raddr (EndsWith id)) ↔
    (∃ k ≤ self.maxDepth, ∃ addr, Scanned self.dns [raddr] k addr ∧
      (late k addr = true ∨ ¬ Answered self.dns addr)) ∨
    ∀ k ≤ self.maxDepth, ∀ addr, Scanned self.dns [raddr] k addr →
      Pinned self.dns id addr := by
  rw [and_iff_left_of_imp DnsAddr.dialsOnly_of_lookup]
  by_cases hok : ∃ addrs, self.lookup late raddr = .ok addrs
  · have hscans := DnsAddr.lookup_ok_iff.1 hok
    obtain ⟨addrs, haddrs⟩ := hok
    rw [or_iff_right]
    · simp only [haddrs, Except.ok.injEq, forall_eq']
      constructor
      · intro hends k hk addr hscanned
        rw [pinned_iff (hscans k hk addr hscanned).2]
        exact fun addr' hyields =>
          hends addr' ((DnsAddr.mem_lookup haddrs).2 ⟨k, hk, addr, hscanned, hyields⟩)
      · intro hpinned addr' hmem
        obtain ⟨k, hk, addr, hscanned, hyields⟩ := (DnsAddr.mem_lookup haddrs).1 hmem
        exact (pinned_iff (hscans k hk addr hscanned).2).1 (hpinned k hk addr hscanned) addr'
          hyields
    · rintro ⟨k, hk, addr, hscanned, hlate | hunanswered⟩
      · rw [(hscans k hk addr hscanned).1] at hlate
        cases hlate
      · exact hunanswered (hscans k hk addr hscanned).2
  · refine iff_of_true (fun addrs haddrs => absurd ⟨addrs, haddrs⟩ hok) (.inl ?_)
    -- a scan has failed, or its timer has fired
    rw [DnsAddr.lookup_ok_iff] at hok
    push Not at hok
    obtain ⟨k, hk, addr, hscanned, hfails⟩ := hok
    refine ⟨k, hk, addr, hscanned, ?_⟩
    cases hlate : late k addr with
    | true => exact .inl rfl
    | false => exact .inr (hfails hlate)

end

section Sample

attribute [local instance] Libp2p.ed25519

/-- The text format, as far as the record below needs it. -/
@[reducible] def MultiaddrText.record : MultiaddrText where
  fromStr
    | "/ip4/127.0.0.1/tcp/4001/p2p/12D3KooWDwTirQce1RRKnasT5fPVFgzXCy6SiRgSwrwPGLC7zE91" =>
      .ok [.ip4 0x7f000001, .tcp 4001, .p2p keyB.toPeerId]
    | _ => .error (.ioError "invalid multiaddr")
  toString _ := "/dnsaddr/example.org"

attribute [local instance] MultiaddrText.record

/-- Name servers with one TXT record, which names the peer with key `keyB`. -/
def oneRecord : DnsLookup where
  lookupIp _ := .error (.ioError "no records found")
  lookupTxt
    | "_dnsaddr.example.org" => .ok
      ["dnsaddr=/ip4/127.0.0.1/tcp/4001/p2p/12D3KooWDwTirQce1RRKnasT5fPVFgzXCy6SiRgSwrwPGLC7zE91"]
    | _ => .error (.ioError "no records found")

/-- The address `/dnsaddr/example.org/p2p/X`, where `X` is the peer with key `keyA`, resolves to an
address of the peer with key `keyB`. -/
theorem lookup_other_peer :
    ¬ ∀ (self : DnsAddr) (late : ℕ → Multiaddr → Bool) (raddr : Multiaddr) (id : PeerId),
      EndsWith id raddr → raddr.isDnsaddrTransport = true →
      ∀ addrs, self.lookup late raddr = .ok addrs → ∀ addr ∈ addrs, EndsWith id addr := by
  intro hall
  have hlast : EndsWith keyA.toPeerId [.dnsaddr "example.org", .p2p keyA.toPeerId] := rfl
  have hlookup : (DnsAddr.new oneRecord).lookup (fun _ _ => false)
      [.dnsaddr "example.org", .p2p keyA.toPeerId] =
      .ok [[.ip4 0x7f000001, .tcp 4001, .p2p keyB.toPeerId]] := by
    decide
  have hends := hall _ _ _ _ hlast rfl _ hlookup _ (List.mem_singleton_self _)
  exact absurd hends (by unfold EndsWith; decide)

end Sample

end XStack
