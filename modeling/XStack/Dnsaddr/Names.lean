import XStack.Data.Sections
import XStack.Dnsaddr.Resolution

/-!
# Replacing names by IP addresses

The `dns`, `dns4` and `dns6` components of an address stand for IP addresses of their names, of any
family, of version 4, and of version 6.  `dns_lookup` is meant to find all addresses in which each
of them is replaced by one of these.  It does not ask for the family, and the list of what it has
built so far is empty at the beginning and when a name has no IP addresses alike: what precedes the
first name is lost, and so is everything up to a name without IP addresses, if another name follows
(`other_family_kept`).

## Main definitions

* `substitutions` : the addresses that a scan is meant to find.

## Main results

* `dnsScan_perm` : what it finds.
* `dns_lookup_iff` : when the two are the same.
-/

namespace XStack

open Multiaddr

/-- The component that holds an IP address. -/
def Protocol.ofIp : IpAddr → Protocol
  | .v4 ip => .ip4 ip
  | .v6 ip => .ip6 ip

/-- The component stands for IP addresses of this family. -/
def Protocol.asksFor : Protocol → IpAddr → Bool
  | dns4 _, .v6 _ | dns6 _, .v4 _ => false
  | _, _ => true

/-- What a component may be replaced by: a name by the IP addresses that its servers answer and that
are of the right family, and any other component by itself only. -/
def choices (asks : Protocol → IpAddr → Bool) (answers : String → List IpAddr) (p : Protocol) :
    List Protocol :=
  match p.ipName with
  | some name => ((answers name).filter (asks p)).map Protocol.ofIp
  | none => [p]

/-- All addresses in which each name is replaced by one of its IP addresses of the family that the
component asks for. -/
def substitutions (answers : String → List IpAddr) (addr : Multiaddr) : List Multiaddr :=
  (addr.map (choices Protocol.asksFor answers)).sections

/-- Any IP address. -/
def anyFamily : Protocol → IpAddr → Bool := fun _ _ => true

section

variable {answers : String → List IpAddr} {p : Protocol} {name : String} {addr rest : Multiaddr}

theorem ofIp_eq (ip : IpAddr) : Multiaddr.ofIp ip = [.ofIp ip] := by cases ip <;> rfl

theorem Protocol.ofIp_inj {ip ip' : IpAddr} (h : Protocol.ofIp ip = .ofIp ip') : ip = ip' := by
  cases ip <;> cases ip' <;> cases h <;> rfl

theorem choices_other {asks : Protocol → IpAddr → Bool} (hp : p.ipName = none) :
    choices asks answers p = [p] := by
  rw [choices, hp]

theorem choices_anyFamily (hp : p.ipName = some name) :
    choices anyFamily answers p = (answers name).map Protocol.ofIp := by
  have hfilter : (answers name).filter (anyFamily p) = answers name :=
    List.filter_eq_self.2 fun _ _ => rfl
  rw [choices, hp]
  simp only [hfilter]

theorem substitutions_eq_nil (hmem : p ∈ addr) (hp : p.ipName = some name)
    (hnone : ∀ ip ∈ answers name, p.asksFor ip = false) : substitutions answers addr = [] := by
  refine sections_eq_nil (List.mem_map.2 ⟨p, hmem, ?_⟩)
  have hfilter : (answers name).filter p.asksFor = [] := by simpa using hnone
  rw [choices, hp]
  simp only [hfilter, List.map_nil]

/-- Names whose IP addresses are all of the right family may be replaced by all of them. -/
theorem choices_eq_anyFamily
    (h : ∀ name, p.ipName = some name → ∀ ip ∈ answers name, p.asksFor ip = true) :
    choices Protocol.asksFor answers p = choices anyFamily answers p := by
  cases hp : p.ipName with
  | none => rw [choices_other hp, choices_other hp]
  | some name =>
    have hfilter : (answers name).filter p.asksFor = answers name :=
      List.filter_eq_self.2 (h name hp)
    rw [choices_anyFamily hp, choices, hp]
    simp only [hfilter]

theorem forall_mem_ipNames {P : String → Prop} : (∀ name ∈ addr.ipNames, P name) ↔
    ∀ p ∈ addr, ∀ name, p.ipName = some name → P name := by
  constructor
  · intro h p hmem name hp
    exact h name (List.mem_filterMap.2 ⟨p, hmem, hp⟩)
  · intro h name hmem
    obtain ⟨p, hmem, hp⟩ := List.mem_filterMap.1 hmem
    exact h p hmem name hp

theorem exists_first_name (h : addr.ipNames ≠ []) : ∃ front p rest, addr = front ++ p :: rest ∧
    ipNames front = [] ∧ p.ipName.isSome = true := by
  induction addr with
  | nil => exact absurd rfl h
  | cons p rest ih =>
    cases hp : p.ipName with
    | some name => exact ⟨[], p, rest, rfl, rfl, by rw [hp]; rfl⟩
    | none =>
      rw [ipNames, List.filterMap_cons_none hp] at h
      obtain ⟨front, q, rest', haddr, hfront, hq⟩ := ih h
      refine ⟨p :: front, q, rest', by rw [haddr]; rfl, ?_, hq⟩
      rw [ipNames, List.filterMap_cons_none hp]
      exact hfront

theorem choices_ne_nil (h : ∀ name, p.ipName = some name → answers name ≠ []) :
    choices anyFamily answers p ≠ [] := by
  cases hp : p.ipName with
  | none => simp [choices_other hp]
  | some name => simpa [choices_anyFamily hp] using h name hp

variable [MultiaddrText] {dns : DnsLookup} {built : List Multiaddr}

theorem dnsScan_cons (hdnsaddr : firstDnsaddr (p :: rest) = none)
    (hips : ∀ name, p.ipName = some name → dns.lookupIp name = .ok (answers name))
    (hbuilt : built ≠ []) : dnsScan dns (p :: rest) built =
      dnsScan dns rest ((choices anyFamily answers p).flatMap fun x => built.map (· ++ [x])) := by
  have happend : dnsScan dns (p :: rest) built = dnsScan dns [p] built >>= dnsScan dns rest := by
    rw [← List.singleton_append, firstDnsaddr_append, Option.or_eq_none_iff] at hdnsaddr
    show dnsScan dns ([p] ++ rest) built = _
    exact dnsScan_append hdnsaddr.1
  rw [happend]
  cases hp : p.ipName with
  | some name =>
    have hpush : pushAddrs built (answers name) =
        (choices anyFamily answers p).flatMap fun x => built.map (· ++ [x]) := by
      simp [pushAddrs, hbuilt, choices_anyFamily hp, ofIp_eq, List.flatMap_map]
    rw [dnsScan_name hp, hips name hp, ← hpush]
    rfl
  | none =>
    have hname : p.isName = false := by
      cases p <;> simp_all [Protocol.isName, Protocol.ipName, firstDnsaddr]
    rw [dnsScan_other hname, choices_other hp]
    simp [bind, Except.bind]

/-- **What a scan finds** after it has built something, if every name has an IP address: everything
that has been built, continued in all possible ways. -/
theorem dnsScan_perm (hdnsaddr : addr.firstDnsaddr = none)
    (hips : ∀ name ∈ addr.ipNames, dns.lookupIp name = .ok (answers name) ∧ answers name ≠ [])
    (hbuilt : built ≠ []) : ∃ raddrs, dnsScan dns addr built = .ok raddrs ∧
      raddrs.Perm (built.flatMap fun s =>
        (addr.map (choices anyFamily answers)).sections.map (s ++ ·)) := by
  induction addr generalizing built with
  | nil => exact ⟨built, rfl, by simp⟩
  | cons p rest ih =>
    obtain ⟨hp, hips⟩ := List.forall_mem_cons.1 (forall_mem_ipNames.1 hips)
    have hrest : firstDnsaddr rest = none := by
      rw [← List.singleton_append, firstDnsaddr_append, Option.or_eq_none_iff] at hdnsaddr
      exact hdnsaddr.2
    have hchoices : choices anyFamily answers p ≠ [] := choices_ne_nil fun name h => (hp name h).2
    have hbuilt' : ((choices anyFamily answers p).flatMap fun x => built.map (· ++ [x])) ≠ [] := by
      obtain ⟨x, hx⟩ := List.exists_mem_of_ne_nil _ hchoices
      obtain ⟨s, hs⟩ := List.exists_mem_of_ne_nil _ hbuilt
      exact List.ne_nil_of_mem (List.mem_flatMap.2 ⟨x, hx, List.mem_map_of_mem hs⟩)
    obtain ⟨raddrs, hscan, hperm⟩ := ih hrest (forall_mem_ipNames.2 hips) hbuilt'
    rw [dnsScan_cons hdnsaddr (fun name h => (hp name h).1) hbuilt]
    exact ⟨raddrs, hscan, hperm.trans (extend_perm built _ _)⟩

theorem dnsScan_front {front : Multiaddr} (hdnsaddr : front.firstDnsaddr = none)
    (hfront : front.ipNames = []) : dnsScan dns (front ++ rest) [] = dnsScan dns rest [] := by
  obtain ⟨hok, hstacks⟩ : _ ∧ ∀ built, dnsScan dns front [] = .ok built → Stacks dns front built :=
    dnsScan_stacks hdnsaddr
  obtain ⟨built, hscan⟩ := hok.2 (by simp [hfront])
  have hnil : built = [] := by
    by_contra hne
    obtain ⟨name, ips, hlast, -⟩ := (hstacks built hscan).ne_nil_iff.1 hne
    rw [hfront] at hlast
    cases hlast
  rw [dnsScan_append hdnsaddr, hscan, hnil]
  rfl

/-- The first name is replaced as if the empty address had been built before. -/
theorem dnsScan_first (hp : p.ipName = some name) :
    dnsScan dns (p :: rest) [] = dnsScan dns (p :: rest) [[]] := by
  have hpush : ∀ ips, pushAddrs [] ips = pushAddrs [[]] ips := by
    intro ips
    simp [pushAddrs]
  cases p <;> cases hp <;> simp only [dnsScan, hpush]

/-- The last name that is to be replaced has no IP address. -/
def LastUnanswered (answers : String → List IpAddr) (addr : Multiaddr) : Prop :=
  ∃ name, addr.ipNames.getLast? = some name ∧ answers name = []

/-- The address begins with a name, and every name in it has IP addresses, all of them of the family
that is asked for. -/
structure Replaceable (answers : String → List IpAddr) (addr : Multiaddr) : Prop where
  first : ∃ p name, addr.head? = some p ∧ p.ipName = some name
  answered : ∀ p ∈ addr, ∀ name, p.ipName = some name →
    answers name ≠ [] ∧ ∀ ip ∈ answers name, p.asksFor ip = true

/-- If every name has an IP address, what is found are the possible replacements from the first name
on. -/
theorem dnsLookup_perm {front : Multiaddr} (haddr : addr = front ++ p :: rest)
    (hdnsaddr : addr.firstDnsaddr = none) (hfront : front.ipNames = [])
    (hp : p.ipName = some name)
    (hips : ∀ name ∈ addr.ipNames, dns.lookupIp name = .ok (answers name) ∧ answers name ≠ []) :
    ∃ raddrs, dnsLookup dns addr = .ok raddrs ∧
      raddrs.Perm ((p :: rest).map (choices anyFamily answers)).sections := by
  have hnames : addr.ipNames = ipNames (p :: rest) := by
    rw [haddr, ipNames, List.filterMap_append]
    exact congrArg (· ++ _) hfront
  rw [haddr, firstDnsaddr_append, Option.or_eq_none_iff] at hdnsaddr
  have hbuilt : [([] : Multiaddr)] ≠ [] := List.cons_ne_nil _ _
  obtain ⟨raddrs, hscan, hperm⟩ := dnsScan_perm hdnsaddr.2 (hnames ▸ hips) hbuilt
  refine ⟨raddrs, ?_, by simpa using hperm⟩
  rw [dnsLookup, haddr, dnsScan_front hdnsaddr.1 hfront, dnsScan_first hp, hscan]

/-- The names of a replaceable address are replaced in all possible ways. -/
theorem dnsLookup_of_replaceable (hdnsaddr : addr.firstDnsaddr = none)
    (hdns : ∀ name ∈ addr.ipNames, dns.lookupIp name = .ok (answers name))
    (hrep : Replaceable answers addr) :
    ∃ raddrs, dnsLookup dns addr = .ok raddrs ∧ raddrs.Perm (substitutions answers addr) := by
  obtain ⟨p, name, hhead, hp⟩ := hrep.first
  obtain ⟨rest, haddr⟩ := List.head?_eq_some_iff.1 hhead
  have hanswered : ∀ name ∈ addr.ipNames, answers name ≠ [] :=
    forall_mem_ipNames.2 fun q hq name hname => (hrep.answered q hq name hname).1
  obtain ⟨raddrs, hscan, hperm⟩ := dnsLookup_perm (haddr.trans (List.nil_append _).symm) hdnsaddr
    rfl hp fun name hmem => ⟨hdns name hmem, hanswered name hmem⟩
  have hchoices : addr.map (choices anyFamily answers) =
      addr.map (choices Protocol.asksFor answers) :=
    List.map_congr_left fun q hq =>
      (choices_eq_anyFamily fun name hname => (hrep.answered q hq name hname).2).symm
  rw [← haddr, hchoices] at hperm
  exact ⟨raddrs, hscan, hperm⟩

/-- If something is found, and all that is found are possible substitutions, the address is
replaceable. -/
theorem replaceable_of_dnsLookup {raddrs : List Multiaddr} (hdnsaddr : addr.firstDnsaddr = none)
    (hnames : addr.ipNames ≠ [])
    (hdns : ∀ name ∈ addr.ipNames, dns.lookupIp name = .ok (answers name)) (hne : raddrs ≠ [])
    (hscan : dnsLookup dns addr = .ok raddrs) (hperm : raddrs.Perm (substitutions answers addr)) :
    Replaceable answers addr := by
  have hsubst : substitutions answers addr ≠ [] := fun hnil =>
    hne (hperm.trans (.of_eq hnil)).eq_nil
  have hanswered : ∀ q ∈ addr, ∀ name, q.ipName = some name → answers name ≠ [] :=
    fun q hmem name hq hnil => hsubst (substitutions_eq_nil hmem hq (by simp [hnil]))
  obtain ⟨front, p, rest, haddr, hfront, hp⟩ := exists_first_name hnames
  obtain ⟨name, hp⟩ := Option.isSome_iff_exists.1 hp
  obtain ⟨raddrs', hscan', hperm'⟩ := dnsLookup_perm haddr hdnsaddr hfront hp
    fun name hmem => ⟨hdns name hmem, forall_mem_ipNames.2 hanswered name hmem⟩
  obtain rfl : raddrs = raddrs' := Except.ok.inj (hscan.symm.trans hscan')
  -- the addresses that are found are as long as the given one
  obtain rfl : front = [] := by
    obtain ⟨raddr, hmem⟩ := List.exists_mem_of_ne_nil _ hne
    have hshort := List.mem_sections_length (hperm'.subset hmem)
    have hlong := List.mem_sections_length (hperm.subset hmem)
    simp only [List.length_map, haddr, List.length_append] at hshort hlong
    exact List.eq_nil_of_length_eq_zero (by omega)
  have hsame : p :: rest = addr := haddr.symm
  rw [hsame] at hperm'
  refine ⟨⟨p, name, by rw [haddr]; rfl, hp⟩, fun q hq name' hq' =>
    ⟨hanswered q hq name' hq', fun ip hip => ?_⟩⟩
  have hsubset := subset_of_sections_subset (fun q hq => choices_ne_nil (hanswered q hq))
    (hperm'.symm.trans hperm).subset q hq
  have hmem : Protocol.ofIp ip ∈ choices anyFamily answers q := by
    rw [choices_anyFamily hq']
    exact List.mem_map_of_mem hip
  have hmem' := hsubset hmem
  rw [choices, hq'] at hmem'
  obtain ⟨ip', hip', heq⟩ := List.mem_map.1 hmem'
  rw [← Protocol.ofIp_inj heq]
  exact (List.mem_filter.1 hip').2

/-- **When names are replaced as they should be**: a scan of an address with names, but without
`dnsaddr` components, finds the possible substitutions, each as often as there is one, if and only
if the last name has no IP address, or the address is replaceable. -/
theorem dns_lookup_iff (hdnsaddr : addr.firstDnsaddr = none) (hnames : addr.ipNames ≠ [])
    (hdns : ∀ name ∈ addr.ipNames, dns.lookupIp name = .ok (answers name)) :
    (∃ raddrs, dnsLookup dns addr = .ok raddrs ∧ raddrs.Perm (substitutions answers addr)) ↔
      LastUnanswered answers addr ∨ Replaceable answers addr := by
  obtain ⟨hok, hstacks⟩ : _ ∧ ∀ built, dnsScan dns addr [] = .ok built → Stacks dns addr built :=
    dnsScan_stacks hdnsaddr
  obtain ⟨raddrs, hscan⟩ := hok.2 fun name hmem => ⟨_, hdns name hmem⟩
  have hfound : raddrs = [] ↔ LastUnanswered answers addr := by
    rw [← not_iff_not, ← ne_eq, (hstacks raddrs hscan).ne_nil_iff]
    obtain ⟨last, hlast⟩ := Option.isSome_iff_exists.1 (List.getLast?_isSome.2 hnames)
    simp [HasStack, LastUnanswered, hlast, hdns last (List.mem_of_getLast? hlast)]
  by_cases hlast : LastUnanswered answers addr
  · -- nothing can be substituted for the last name, and nothing is found
    obtain ⟨last, hgetLast, hnil⟩ := hlast
    obtain ⟨p, hmem, hp⟩ := List.mem_filterMap.1 (List.mem_of_getLast? hgetLast)
    refine iff_of_true ⟨raddrs, hscan, ?_⟩ (.inl ⟨last, hgetLast, hnil⟩)
    rw [hfound.2 ⟨last, hgetLast, hnil⟩, substitutions_eq_nil hmem hp (by simp [hnil])]
  · rw [or_iff_right hlast]
    refine ⟨?_, dnsLookup_of_replaceable hdnsaddr hdns⟩
    rintro ⟨raddrs', hscan', hperm⟩
    obtain rfl : raddrs = raddrs' := Except.ok.inj (hscan.symm.trans hscan')
    have hne : raddrs ≠ [] := fun hnil => hlast (hfound.1 hnil)
    exact replaceable_of_dnsLookup hdnsaddr hnames hdns hne hscan hperm

end

section Sample

/-- No text is parsed in the scans below. -/
@[reducible] def MultiaddrText.unparsed : MultiaddrText := ⟨fun _ => .error .timeout, fun _ => ""⟩

attribute [local instance] MultiaddrText.unparsed

/-- Name servers that answer the same IP addresses for every name. -/
def alwaysAnswers (ips : List IpAddr) : DnsLookup := ⟨fun _ => .ok ips, fun _ => .ok []⟩

theorem dns_lookup_iff_example :
    ∃ raddrs, dnsLookup (alwaysAnswers [.v4 0x0a000002]) [.dns4 "node.example", .tcp 4001] =
        .ok raddrs ∧
      raddrs.Perm
        (substitutions (fun _ => [.v4 0x0a000002]) [.dns4 "node.example", .tcp 4001]) := by
  refine (dns_lookup_iff rfl (by decide) fun _ _ => rfl).2 (.inr ⟨⟨_, _, rfl, rfl⟩, ?_⟩)
  intro p hmem name hp
  refine ⟨by decide, fun ip hip => ?_⟩
  rw [List.mem_singleton.1 hip]
  rcases List.mem_pair.1 hmem with rfl | rfl
  · rfl
  · cases hp

/-- The IPv6 address of a name is put in for a `dns4` component. -/
theorem other_family_kept :
    ¬ ∀ (dns : DnsLookup) (answers : String → List IpAddr) (addr : Multiaddr),
      addr.firstDnsaddr = none → addr.ipNames ≠ [] →
      (∀ name ∈ addr.ipNames, dns.lookupIp name = .ok (answers name)) →
      ∃ raddrs, dnsLookup dns addr = .ok raddrs ∧ raddrs.Perm (substitutions answers addr) := by
  intro hall
  obtain ⟨raddrs, hscan, hperm⟩ := hall (alwaysAnswers [.v6 1]) (fun _ => [.v6 1])
    [.dns4 "node.example", .tcp 4001] rfl (by decide) fun _ _ => rfl
  have hlength := hperm.length_eq
  cases hscan
  exact absurd hlength (by decide)

-- what precedes the first name is lost
example : dnsLookup (alwaysAnswers [.v6 1]) [.ip6zone "eth0", .dns6 "node.example", .tcp 4001] =
    .ok [[.ip6 1, .tcp 4001]] := by rfl

end Sample

end XStack
