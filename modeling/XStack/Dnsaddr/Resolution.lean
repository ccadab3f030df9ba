import XStack.Dnsaddr.Basic
import XStack.Data.Except
import Mathlib.Data.List.Induction

/-!
# What a name resolves to

The results of `lookup` described without its loops.  A scan has two kinds of results: the stacks,
in which IP addresses have replaced the names before the first `dnsaddr` component, and the
addresses listed by the TXT records of that component.  The stacks contain no names, so the
addresses that the next round scans are listed ones.

## Main definitions

* `Lists` : a TXT record of the first `dnsaddr` component lists an address.
* `Answered` : every query of a scan is answered, and the records parse.
* `Scanned` : the addresses that a round of `lookup` scans.

## Main results

* `dnsLookup_ok_iff`, `mem_dnsLookup` : when a scan succeeds, and what it results in.
* `lookup_ok_iff`, `mem_lookup_iff` : the same for `lookup`.
-/

namespace XStack

/-- The name that is replaced by IP addresses. -/
def Protocol.ipName : Protocol → Option String
  | dns name | dns4 name | dns6 name => some name
  | _ => none

namespace Multiaddr

/-- The name of the first `dnsaddr` component. -/
def firstDnsaddr : Multiaddr → Option String
  | [] => none
  | .dnsaddr name :: _ => some name
  | _ :: rest => firstDnsaddr rest

/-- The components before the first `dnsaddr` component. -/
def beforeDnsaddr : Multiaddr → Multiaddr
  | [] => []
  | .dnsaddr _ :: _ => []
  | protocol :: rest => protocol :: beforeDnsaddr rest

/-- The names that are replaced by IP addresses. -/
def ipNames (addr : Multiaddr) : List String := addr.filterMap Protocol.ipName

theorem firstDnsaddr_beforeDnsaddr (addr : Multiaddr) :
    addr.beforeDnsaddr.firstDnsaddr = none := by
  induction addr with
  | nil => rfl
  | cons p rest ih => cases p <;> simp [beforeDnsaddr, firstDnsaddr, ih]

theorem beforeDnsaddr_eq {addr : Multiaddr} (h : addr.firstDnsaddr = none) :
    addr.beforeDnsaddr = addr := by
  induction addr with
  | nil => rfl
  | cons p rest ih =>
    cases p
    all_goals first
      | exact absurd h (Option.some_ne_none _)
      | exact congrArg _ (ih h)

theorem firstDnsaddr_append {addr addr' : Multiaddr} :
    firstDnsaddr (addr ++ addr') = addr.firstDnsaddr.or addr'.firstDnsaddr := by
  induction addr with
  | nil => rfl
  | cons p rest ih => cases p <;> simp [firstDnsaddr, ih]

/-- No component of the address is a name. -/
def NameFree (addr : Multiaddr) : Prop := addr.isDnsaddrTransport = false

theorem NameFree.append {addr addr' : Multiaddr} (h : addr.NameFree) (h' : addr'.NameFree) :
    NameFree (addr ++ addr') := by
  simp only [NameFree, isDnsaddrTransport, List.any_append, Bool.or_eq_false_iff] at *
  exact ⟨h, h'⟩

theorem NameFree.no_names {addr : Multiaddr} (h : addr.NameFree) :
    addr.ipNames = [] ∧ addr.firstDnsaddr = none := by
  induction addr with
  | nil => exact ⟨rfl, rfl⟩
  | cons p rest ih =>
    simp only [NameFree, isDnsaddrTransport, List.any_cons, Bool.or_eq_false_iff] at h ih
    obtain ⟨hnames, hfirst⟩ := ih h.2
    cases p
    all_goals first
      | exact ⟨hnames, hfirst⟩
      | cases h.1

theorem nameFree_ofIp (ip : IpAddr) : NameFree (.ofIp ip) := by
  cases ip <;> rfl

theorem nameFree_ofQuic (addr : SocketAddr) : NameFree (.ofQuic addr) :=
  (nameFree_ofIp addr.ip).append rfl

end Multiaddr

open Multiaddr

/-! ### One scan -/

section

variable {dns : DnsLookup} {addr addr' : Multiaddr} {built : List Multiaddr} {id : PeerId}

/-- The last of the names to be replaced has an IP address. -/
def HasStack (dns : DnsLookup) (addr : Multiaddr) : Prop :=
  ∃ name ips, addr.ipNames.getLast? = some name ∧ dns.lookupIp name = .ok ips ∧ ips ≠ []

theorem mem_pushAddrs {stack : Multiaddr} {ips : List IpAddr} (h : stack ∈ pushAddrs built ips) :
    ∃ ip ∈ ips, ∃ stack', (stack' = [] ∨ stack' ∈ built) ∧ stack = stack' ++ .ofIp ip := by
  obtain ⟨ip, hip, h⟩ := List.mem_flatMap.1 h
  split_ifs at h with hempty
  · exact ⟨ip, hip, [], .inl rfl, List.mem_singleton.1 h⟩
  · obtain ⟨stack', hmem, rfl⟩ := List.mem_map.1 h
    exact ⟨ip, hip, stack', .inr hmem, rfl⟩

theorem pushAddrs_ne_nil {ips : List IpAddr} : pushAddrs built ips ≠ [] ↔ ips ≠ [] := by
  cases ips with
  | nil => simp [pushAddrs]
  | cons ip ips =>
    cases built <;> simp [pushAddrs]

/-- What the scan of the part before the first `dnsaddr` component results in. -/
structure Stacks (dns : DnsLookup) (addr : Multiaddr) (built : List Multiaddr) : Prop where
  nameFree : ∀ stack ∈ built, stack.NameFree
  ne_nil_iff : built ≠ [] ↔ HasStack dns addr
  getLast_iff : ∀ stack ∈ built, ∀ id,
    stack.getLast? = some (.p2p id) ↔ addr.getLast? = some (.p2p id)

theorem Stacks.push {p : Protocol} {name : String} (hp : p.ipName = some name) {ips : List IpAddr}
    (hips : dns.lookupIp name = .ok ips) (h : Stacks dns addr built) :
    Stacks dns (addr ++ [p]) (pushAddrs built ips) where
  nameFree stack hmem := by
    obtain ⟨ip, -, stack', hstack', rfl⟩ := mem_pushAddrs hmem
    refine NameFree.append ?_ (nameFree_ofIp ip)
    rcases hstack' with rfl | hstack'
    · rfl
    · exact h.nameFree _ hstack'
  ne_nil_iff := by
    simp [pushAddrs_ne_nil, HasStack, ipNames, hp, hips]
  getLast_iff stack hmem id := by
    obtain ⟨ip, -, stack', -, rfl⟩ := mem_pushAddrs hmem
    cases p <;> cases ip <;> simp [ofIp, Protocol.ipName] at hp ⊢

theorem Stacks.push_other {p : Protocol} (hp : p.isName = false) (h : Stacks dns addr built) :
    Stacks dns (addr ++ [p]) (built.map fun stack => stack ++ [p]) where
  nameFree stack hmem := by
    obtain ⟨stack', hmem', rfl⟩ := List.mem_map.1 hmem
    exact (h.nameFree stack' hmem').append (by simp [NameFree, isDnsaddrTransport, hp])
  ne_nil_iff := by
    have hname : p.ipName = none := by cases p <;> simp_all [Protocol.isName, Protocol.ipName]
    rw [ne_eq, List.map_eq_nil_iff, ← ne_eq, h.ne_nil_iff]
    simp [HasStack, ipNames, hname]
  getLast_iff stack hmem id := by
    obtain ⟨stack, -, rfl⟩ := List.mem_map.1 hmem
    simp

variable [MultiaddrText]

theorem dnsScan_append (h : addr.firstDnsaddr = none) :
    dnsScan dns (addr ++ addr') built = dnsScan dns addr built >>= dnsScan dns addr' := by
  induction addr generalizing built with
  | nil => rfl
  | cons p rest ih =>
    cases p
    all_goals first
      | exact absurd h (Option.some_ne_none _)
      | simp only [List.cons_append, dnsScan, ih h, bind_assoc]

/-- A scan: first the stacks, then the records. -/
theorem dnsScan_eq (dns : DnsLookup) (addr : Multiaddr) (built : List Multiaddr) :
    dnsScan dns addr built = do
      let built ← dnsScan dns addr.beforeDnsaddr built
      match addr.firstDnsaddr with
      | none => return built
      | some name => do
        let txt ← dns.lookupTxt ("_dnsaddr." ++ name)
        let addrs ← parseRecords txt
        return built ++ addrs := by
  induction addr generalizing built with
  | nil => rfl
  | cons p rest ih =>
    cases p
    all_goals simp only [dnsScan, beforeDnsaddr, firstDnsaddr, ih, bind_assoc]
    rfl

theorem dnsScan_name {p : Protocol} {name : String} (hp : p.ipName = some name) :
    dnsScan dns [p] built = dns.lookupIp name >>= fun ips => .ok (pushAddrs built ips) := by
  cases p <;> cases hp <;> rfl

theorem dnsScan_other {p : Protocol} (hp : p.isName = false) :
    dnsScan dns [p] built = .ok (built.map fun stack => stack ++ [p]) := by
  cases p <;> first | rfl | cases hp

/-- The scan of the part before the first `dnsaddr` component. -/
theorem dnsScan_stacks (h : addr.firstDnsaddr = none) :
    ((∃ built, dnsScan dns addr [] = .ok built) ↔
      ∀ name ∈ addr.ipNames, ∃ ips, dns.lookupIp name = .ok ips) ∧
    ∀ built, dnsScan dns addr [] = .ok built → Stacks dns addr built := by
  induction addr using List.reverseRecOn with
  | nil =>
    refine ⟨⟨fun _ => by simp [ipNames], fun _ => ⟨[], rfl⟩⟩, fun built hs => ?_⟩
    cases hs
    exact ⟨by simp, by simp [HasStack, ipNames], by simp⟩
  | append_singleton addr p ih =>
    -- the induction is on the prefixes of the address, as the scan goes on at its end
    rw [firstDnsaddr_append, Option.or_eq_none_iff] at h
    obtain ⟨hok, hstacks⟩ := ih h.1
    rw [dnsScan_append h.1]
    cases hp : p.ipName with
    | some name =>
      constructor
      · simp only [ipNames, List.filterMap_append, List.forall_mem_append] at hok ⊢
        rw [← hok]
        simp [hp, bind_eq_ok, dnsScan_name hp]
      · intro built hs
        obtain ⟨built', hs', hs⟩ := bind_eq_ok.1 hs
        rw [dnsScan_name hp] at hs
        obtain ⟨ips, hips, hs⟩ := bind_eq_ok.1 hs
        cases hs
        exact (hstacks built' hs').push hp hips
    | none =>
      have hname : p.isName = false := by
        cases p <;> simp_all [Protocol.isName, Protocol.ipName, firstDnsaddr]
      constructor
      · simp only [ipNames, List.filterMap_append, List.forall_mem_append] at hok ⊢
        rw [← hok]
        simp [hp, bind_eq_ok, dnsScan_other hname]
      · intro built hs
        obtain ⟨built', hs', hs⟩ := bind_eq_ok.1 hs
        rw [dnsScan_other hname] at hs
        cases hs
        exact (hstacks built' hs').push_other hname

/-- A TXT record of the first `dnsaddr` component of `addr` lists `addr'`. -/
def Lists (dns : DnsLookup) (addr addr' : Multiaddr) : Prop :=
  ∃ name txts, addr.firstDnsaddr = some name ∧ dns.lookupTxt ("_dnsaddr." ++ name) = .ok txts ∧
    ∃ txt ∈ txts, ∃ text, dnsaddrText txt = some text ∧ MultiaddrText.fromStr text = .ok addr'

/-- The name servers answer every query of the scan of `addr`, and the records they list parse. -/
def Answered (dns : DnsLookup) (addr : Multiaddr) : Prop :=
  (∀ name ∈ addr.beforeDnsaddr.ipNames, ∃ ips, dns.lookupIp name = .ok ips) ∧
  ∀ name, addr.firstDnsaddr = some name →
    ∃ txts, dns.lookupTxt ("_dnsaddr." ++ name) = .ok txts ∧
      ∀ txt ∈ txts, ∀ text, dnsaddrText txt = some text →
        ∃ addr', MultiaddrText.fromStr text = .ok addr'

theorem parseRecords_ok_iff {txts : List String} :
    (∃ addrs, parseRecords txts = .ok addrs) ↔ ∀ txt ∈ txts, ∀ text, dnsaddrText txt = some text →
      ∃ addr', MultiaddrText.fromStr text = .ok addr' := by
  induction txts with
  | nil => simp [parseRecords]
  | cons txt txts ih =>
    rw [List.forall_mem_cons, ← ih]
    cases htext : dnsaddrText txt with
    | none => simp [parseRecords, htext]
    | some text => simp [parseRecords, htext, bind_eq_ok, pure, Except.pure]

theorem mem_parseRecords {txts : List String} {addrs : List Multiaddr}
    (h : parseRecords txts = .ok addrs) : addr ∈ addrs ↔
      ∃ txt ∈ txts, ∃ text, dnsaddrText txt = some text ∧
        MultiaddrText.fromStr text = .ok addr := by
  induction txts generalizing addrs with
  | nil =>
    cases h
    simp
  | cons txt txts ih =>
    cases htext : dnsaddrText txt with
    | none =>
      simp only [parseRecords, htext] at h
      simp [ih h, htext]
    | some text =>
      simp only [parseRecords, htext] at h
      obtain ⟨addr', hparse, h⟩ := bind_eq_ok.1 h
      obtain ⟨addrs', hrest, h⟩ := bind_eq_ok.1 h
      cases h
      simp [ih hrest, htext, hparse, eq_comm]

theorem dnsLookup_ok_iff : (∃ raddrs, dnsLookup dns addr = .ok raddrs) ↔ Answered dns addr := by
  have hstacks : (∃ built, dnsScan dns addr.beforeDnsaddr [] = .ok built) ↔
      ∀ name ∈ addr.beforeDnsaddr.ipNames, ∃ ips, dns.lookupIp name = .ok ips :=
    (dnsScan_stacks (firstDnsaddr_beforeDnsaddr addr)).1
  rw [Answered, ← hstacks, dnsLookup, dnsScan_eq]
  cases hname : addr.firstDnsaddr with
  | none => simp [bind_eq_ok, pure, Except.pure]
  | some name =>
    simp [bind_eq_ok, pure, Except.pure, ← parseRecords_ok_iff]

/-- The results of a scan: the stacks, and the addresses that the records list. -/
theorem mem_dnsLookup {raddrs : List Multiaddr} (h : dnsLookup dns addr = .ok raddrs) :
    ∃ built, Stacks dns addr.beforeDnsaddr built ∧
      ∀ addr', addr' ∈ raddrs ↔ addr' ∈ built ∨ Lists dns addr addr' := by
  rw [dnsLookup, dnsScan_eq] at h
  obtain ⟨built, hs, h⟩ := bind_eq_ok.1 h
  refine ⟨built, (dnsScan_stacks (firstDnsaddr_beforeDnsaddr addr)).2 built hs, fun addr' => ?_⟩
  cases hname : addr.firstDnsaddr with
  | none =>
    rw [hname] at h
    cases h
    simp [Lists, hname]
  | some name =>
    rw [hname] at h
    obtain ⟨txts, htxts, h⟩ := bind_eq_ok.1 h
    obtain ⟨addrs, haddrs, h⟩ := bind_eq_ok.1 h
    cases h
    simp [Lists, hname, htxts, mem_parseRecords haddrs]

end

/-! ### All rounds -/

section

variable [MultiaddrText] {self : DnsAddr} {addr addr' : Multiaddr}
  {dnsaddrs dnsaddrs' parsed : List Multiaddr}

/-- The addresses that round `k` scans if the first one scans `dnsaddrs`. -/
inductive Scanned (dns : DnsLookup) (dnsaddrs : List Multiaddr) : ℕ → Multiaddr → Prop
  | first {addr : Multiaddr} : addr ∈ dnsaddrs → Scanned dns dnsaddrs 0 addr
  | next {k : ℕ} {addr addr' : Multiaddr} : Scanned dns dnsaddrs k addr → Lists dns addr addr' →
      addr'.isDnsaddrTransport = true → Scanned dns dnsaddrs (k + 1) addr'

theorem scanned_succ_iff {dns : DnsLookup} {k : ℕ}
    (h : ∀ addr', addr' ∈ dnsaddrs' ↔
      (∃ addr ∈ dnsaddrs, Lists dns addr addr') ∧ addr'.isDnsaddrTransport = true) :
    Scanned dns dnsaddrs (k + 1) addr ↔ Scanned dns dnsaddrs' k addr := by
  induction k generalizing addr with
  | zero =>
    constructor
    · rintro (_ | ⟨⟨hmem⟩, hlists, hname⟩)
      exact .first ((h _).2 ⟨⟨_, hmem, hlists⟩, hname⟩)
    · rintro ⟨hmem⟩
      obtain ⟨⟨addr₀, hmem₀, hlists⟩, hname⟩ := (h _).1 hmem
      exact .next (.first hmem₀) hlists hname
  | succ k ih =>
    constructor
    · rintro (_ | ⟨hscanned, hlists, hname⟩)
      exact .next (ih.1 hscanned) hlists hname
    · rintro (_ | ⟨hscanned, hlists, hname⟩)
      exact .next (ih.2 hscanned) hlists hname

theorem not_scanned_nil {dns : DnsLookup} {k : ℕ} : ¬ Scanned dns [] k addr := by
  intro h
  induction h with
  | first hmem => cases hmem
  | next _ _ _ ih => exact ih

/-- A scan of `addr` results in the address `addr'`, which contains no names. -/
def Yields (dns : DnsLookup) (addr addr' : Multiaddr) : Prop :=
  ∃ raddrs, dnsLookup dns addr = .ok raddrs ∧ addr' ∈ raddrs ∧ addr'.NameFree

theorem Multiaddr.NameFree.not_lists {dns : DnsLookup} (h : addr.NameFree) :
    ¬ Lists dns addr addr' := by
  rintro ⟨name, txts, hname, -⟩
  rw [h.no_names.2] at hname
  cases hname

theorem Scanned.nameFree {dns : DnsLookup} {k : ℕ} (h : Scanned dns [addr] k addr')
    (haddr : addr.NameFree) : addr'.NameFree := by
  induction h with
  | first hmem => rwa [List.mem_singleton.1 hmem]
  | next _ hlists _ ih => exact absurd hlists ih.not_lists

theorem not_yields_of_nameFree {dns : DnsLookup} (h : addr.NameFree) : ¬ Yields dns addr addr' := by
  rintro ⟨raddrs, hraddrs, hmem, -⟩
  obtain ⟨hnames, hfirst⟩ := h.no_names
  obtain ⟨built, hstacks, hiff⟩ := mem_dnsLookup hraddrs
  rcases (hiff addr').1 hmem with hstack | hlists
  · obtain ⟨name, ips, hname, -⟩ := hstacks.ne_nil_iff.1 (List.ne_nil_of_mem hstack)
    simp [beforeDnsaddr_eq hfirst, hnames] at hname
  · exact h.not_lists hlists

namespace DnsAddr

theorem lookupRound_ok_iff {late : Multiaddr → Bool} :
    (∃ cached, self.lookupRound late dnsaddrs = .ok cached) ↔
      ∀ addr ∈ dnsaddrs, late addr = false ∧ Answered self.dns addr := by
  induction dnsaddrs with
  | nil => simp [lookupRound]
  | cons addr dnsaddrs ih =>
    rw [List.forall_mem_cons, ← ih, ← dnsLookup_ok_iff]
    cases hlate : late addr <;>
      simp [lookupRound, dnsLookupTimeout, hlate, bind_eq_ok, pure, Except.pure]

theorem mem_lookupRound {late : Multiaddr → Bool} {cached : List Multiaddr}
    (h : self.lookupRound late dnsaddrs = .ok cached) : addr' ∈ cached ↔
      ∃ addr ∈ dnsaddrs, ∃ raddrs, dnsLookup self.dns addr = .ok raddrs ∧ addr' ∈ raddrs := by
  induction dnsaddrs generalizing cached with
  | nil =>
    cases h
    simp
  | cons addr dnsaddrs ih =>
    rw [lookupRound] at h
    obtain ⟨raddrs, hraddrs, h⟩ := bind_eq_ok.1 h
    obtain ⟨cached', hcached', h⟩ := bind_eq_ok.1 h
    cases h
    unfold dnsLookupTimeout at hraddrs
    split_ifs at hraddrs
    simp [ih hcached', hraddrs]

theorem mem_filter_lookupRound {late : Multiaddr → Bool} {cached : List Multiaddr}
    (h : self.lookupRound late dnsaddrs = .ok cached) :
    addr' ∈ cached.filter multiaddrHint ↔
      (∃ addr ∈ dnsaddrs, Lists self.dns addr addr') ∧ addr'.isDnsaddrTransport = true := by
  rw [List.mem_filter, mem_lookupRound h]
  refine and_congr_left fun hname => exists_congr fun addr => and_congr_right fun hmem => ?_
  obtain ⟨raddrs, hraddrs⟩ := dnsLookup_ok_iff.2 (lookupRound_ok_iff.1 ⟨cached, h⟩ addr hmem).2
  obtain ⟨built, hstacks, hiff⟩ := mem_dnsLookup hraddrs
  constructor
  · rintro ⟨raddrs', hraddrs', hmem'⟩
    rw [hraddrs] at hraddrs'
    cases hraddrs'
    rcases (hiff addr').1 hmem' with hstack | hlists
    · exact absurd hname (by rw [multiaddrHint, hstacks.nameFree _ hstack]; decide)
    · exact hlists
  · exact fun hlists => ⟨raddrs, hraddrs, (hiff addr').2 (.inr hlists)⟩

variable {late : ℕ → Multiaddr → Bool} {raddr : Multiaddr}

theorem lookupRounds_ok_iff {left depth : ℕ} :
    (∃ addrs, self.lookupRounds late left depth dnsaddrs parsed = .ok addrs) ↔
      ∀ k < left, ∀ addr, Scanned self.dns dnsaddrs k addr →
        late (depth + k) addr = false ∧ Answered self.dns addr := by
  induction left generalizing depth dnsaddrs parsed with
  | zero => simp [lookupRounds]
  | succ left ih =>
    unfold lookupRounds
    split_ifs with hempty
    · rw [List.isEmpty_iff] at hempty
      subst hempty
      simp [not_scanned_nil]
    · rw [Nat.forall_lt_succ_left]
      constructor
      · rintro ⟨addrs, h⟩
        obtain ⟨cached, hcached, h⟩ := bind_eq_ok.1 h
        refine ⟨fun addr hscanned => ?_, fun k hk addr hscanned => ?_⟩
        · obtain ⟨hmem⟩ := hscanned
          exact lookupRound_ok_iff.1 ⟨cached, hcached⟩ addr hmem
        · rw [scanned_succ_iff fun _ => mem_filter_lookupRound hcached] at hscanned
          rw [Nat.add_comm k 1, ← Nat.add_assoc]
          exact ih.1 ⟨addrs, h⟩ k hk addr hscanned
      · rintro ⟨hfirst, hrest⟩
        obtain ⟨cached, hcached⟩ := lookupRound_ok_iff.2 fun addr hmem => hfirst addr (.first hmem)
        obtain ⟨addrs, h⟩ := ih.2 fun k hk addr hscanned => by
          rw [Nat.add_assoc, Nat.add_comm 1 k]
          exact hrest k hk addr
            ((scanned_succ_iff fun _ => mem_filter_lookupRound hcached).2 hscanned)
        exact ⟨addrs, bind_eq_ok.2 ⟨cached, hcached, h⟩⟩

theorem mem_lookupRounds {left depth : ℕ} {addrs : List Multiaddr}
    (h : self.lookupRounds late left depth dnsaddrs parsed = .ok addrs) :
    addr' ∈ addrs ↔ addr' ∈ parsed ∨
      ∃ k < left, ∃ addr, Scanned self.dns dnsaddrs k addr ∧ Yields self.dns addr addr' := by
  induction left generalizing depth dnsaddrs parsed with
  | zero =>
    cases h
    simp
  | succ left ih =>
    unfold lookupRounds at h
    split_ifs at h with hempty
    · rw [List.isEmpty_iff] at hempty
      subst hempty
      cases h
      simp [not_scanned_nil]
    · obtain ⟨cached, hcached, h⟩ := bind_eq_ok.1 h
      rw [ih h, List.mem_append, or_assoc, Nat.exists_lt_succ_left]
      refine or_congr_right (or_congr ?_ ?_)
      · rw [List.mem_filter, mem_lookupRound hcached]
        constructor
        · rintro ⟨⟨addr, hmem, raddrs, hraddrs, hmem'⟩, hfree⟩
          exact ⟨addr, .first hmem, raddrs, hraddrs, hmem',
            by simpa [NameFree, multiaddrHint] using hfree⟩
        · rintro ⟨addr, ⟨hmem⟩, raddrs, hraddrs, hmem', hfree⟩
          exact ⟨⟨addr, hmem, raddrs, hraddrs, hmem'⟩,
            by simpa [NameFree, multiaddrHint] using hfree⟩
      · simp only [scanned_succ_iff fun _ => mem_filter_lookupRound hcached]

theorem lookup_ok_iff : (∃ addrs, self.lookup late raddr = .ok addrs) ↔
    ∀ k ≤ self.maxDepth, ∀ addr, Scanned self.dns [raddr] k addr →
      late k addr = false ∧ Answered self.dns addr := by
  simp only [lookup, lookupRounds_ok_iff, Nat.lt_succ_iff, Nat.zero_add]

/-- The result of `lookup` is what its scans yield. -/
theorem mem_lookup {addrs : List Multiaddr} (h : self.lookup late raddr = .ok addrs) :
    addr' ∈ addrs ↔ ∃ k ≤ self.maxDepth, ∃ addr,
      Scanned self.dns [raddr] k addr ∧ Yields self.dns addr addr' := by
  simp only [mem_lookupRounds h, List.not_mem_nil, false_or, Nat.lt_succ_iff]

theorem lookup_nameFree (h : raddr.NameFree) {addrs : List Multiaddr}
    (haddrs : self.lookup late raddr = .ok addrs) : addrs = [] := by
  refine List.eq_nil_iff_forall_not_mem.2 fun addr' hmem => ?_
  obtain ⟨k, -, addr, hscanned, hyields⟩ := (mem_lookup haddrs).1 hmem
  exact not_yields_of_nameFree (hscanned.nameFree h) hyields

end DnsAddr

end

end XStack
