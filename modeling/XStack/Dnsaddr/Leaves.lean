import XStack.Dnsaddr.Resolution

/-!
# Recursive resolution

The records of a `dnsaddr` name may list further names, so that the applications of `dns_lookup` to
an address, to its results that contain names, and so on, form a tree, whose leaves are the results
without names.  The tree belongs to whoever runs the name servers; it may be infinite.  `lookup`
goes through it level by level and stops after `self.1 + 1` levels.

## Main definitions

* `leaves` : the leaves of the tree down to some level.
* `NoDeeper` : the tree ends at some level.
* `Rounds` : the loop of `lookup` ends after some number of rounds.

## Main results

* `lookup_leaves` : `lookup` ends after `self.1 + 1` rounds, with the leaves down to that level.
-/

namespace XStack

open Multiaddr

section

variable [MultiaddrText]

/-- The results of `dns_lookup`. -/
def scanned (dns : DnsLookup) (addr : Multiaddr) : List Multiaddr :=
  match dnsLookup dns addr with
  | .ok raddrs => raddrs
  | .error _ => []

/-- The addresses without names that are reached by at least one and at most `n` applications of
`dns_lookup`, each as often as there are ways to it. -/
def leaves (dns : DnsLookup) : ℕ → Multiaddr → List Multiaddr
  | 0, _ => []
  | n + 1, addr => (scanned dns addr).flatMap fun raddr =>
    if raddr.isDnsaddrTransport then leaves dns n raddr else [raddr]

/-- No address that is reached by `n` applications of `dns_lookup` contains names. -/
def NoDeeper (dns : DnsLookup) : ℕ → Multiaddr → Prop
  | 0, addr => addr.NameFree
  | n + 1, addr => ∀ raddr ∈ scanned dns addr, NoDeeper dns n raddr

/-- The name servers answer every query, and the records that they list are addresses. -/
structure ErrorFree (dns : DnsLookup) : Prop where
  ips : ∀ name, ∃ ips, dns.lookupIp name = .ok ips
  records : ∀ name, ∃ txts, dns.lookupTxt name = .ok txts ∧
    ∀ txt ∈ txts, ∀ text, dnsaddrText txt = some text →
      ∃ addr, MultiaddrText.fromStr text = .ok addr

namespace DnsAddr

/-- The loop of `lookup`, with the variables `depth`, `dnsaddrs` and `parsed`, ends after some
number of rounds with a result. -/
inductive Rounds (self : DnsAddr) (late : ℕ → Multiaddr → Bool) :
    ℕ → (depth : ℕ) → (dnsaddrs parsed : List Multiaddr) → Except Error (List Multiaddr) → Prop
  | resolved (depth parsed) : Rounds self late 0 depth [] parsed (.ok parsed)
  | tooDeep {depth dnsaddrs} (parsed) : dnsaddrs ≠ [] → self.maxDepth < depth →
      Rounds self late 0 depth dnsaddrs parsed (.ok parsed)
  | failed {depth dnsaddrs e} (parsed) : dnsaddrs ≠ [] → depth ≤ self.maxDepth →
      self.lookupRound (late depth) dnsaddrs = .error e →
      Rounds self late 1 depth dnsaddrs parsed (.error e)
  | next {n depth dnsaddrs parsed cached result} : dnsaddrs ≠ [] → depth ≤ self.maxDepth →
      self.lookupRound (late depth) dnsaddrs = .ok cached →
      Rounds self late n (depth + 1) (cached.filter multiaddrHint)
        (parsed ++ cached.filter fun addr => !multiaddrHint addr) result →
      Rounds self late (n + 1) depth dnsaddrs parsed result

variable {self : DnsAddr} {late : ℕ → Multiaddr → Bool} {dnsaddrs parsed : List Multiaddr}

theorem lookupRounds_ends {left depth : ℕ} (h : depth + left = self.maxDepth + 1) :
    ∃ n ≤ left, self.Rounds late n depth dnsaddrs parsed
      (self.lookupRounds late left depth dnsaddrs parsed) := by
  induction left generalizing depth dnsaddrs parsed with
  | zero =>
    refine ⟨0, Nat.le_refl _, ?_⟩
    rw [lookupRounds]
    by_cases hempty : dnsaddrs = []
    · rw [hempty]
      exact .resolved depth parsed
    · exact .tooDeep parsed hempty (by omega)
  | succ left ih =>
    rw [lookupRounds]
    split_ifs with hempty
    · rw [List.isEmpty_iff] at hempty
      rw [hempty]
      exact ⟨0, Nat.zero_le _, .resolved depth parsed⟩
    · rw [List.isEmpty_iff] at hempty
      cases hcached : self.lookupRound (late depth) dnsaddrs with
      | error e => exact ⟨1, by omega, .failed parsed hempty (by omega) hcached⟩
      | ok cached =>
        have hleft : depth + 1 + left = self.maxDepth + 1 := by omega
        obtain ⟨n, hn, hrounds⟩ : ∃ n ≤ left, self.Rounds late n (depth + 1)
            (cached.filter multiaddrHint)
            (parsed ++ cached.filter fun addr => !multiaddrHint addr) _ := ih hleft
        exact ⟨n + 1, by omega, .next hempty (by omega) hcached hrounds⟩

theorem lookupRound_eq {late : Multiaddr → Bool} {cached : List Multiaddr}
    (h : self.lookupRound late dnsaddrs = .ok cached) :
    cached = dnsaddrs.flatMap (scanned self.dns) := by
  induction dnsaddrs generalizing cached with
  | nil =>
    cases h
    rfl
  | cons addr dnsaddrs ih =>
    rw [lookupRound] at h
    obtain ⟨raddrs, hraddrs, h⟩ := bind_eq_ok.1 h
    obtain ⟨cached', hcached', h⟩ := bind_eq_ok.1 h
    cases h
    unfold dnsLookupTimeout at hraddrs
    split_ifs at hraddrs
    rw [List.flatMap_cons, ← ih hcached', scanned, hraddrs]

theorem split_perm (dns : DnsLookup) (n : ℕ) (cached : List Multiaddr) :
    (cached.filter (fun addr => !multiaddrHint addr) ++
      (cached.filter multiaddrHint).flatMap (leaves dns n)).Perm
      (cached.flatMap fun raddr =>
        if raddr.isDnsaddrTransport then leaves dns n raddr else [raddr]) := by
  induction cached with
  | nil => exact .refl _
  | cons raddr cached ih =>
    rw [List.flatMap_cons]
    cases hname : raddr.isDnsaddrTransport with
    | true =>
      rw [List.filter_cons_of_neg (by simp [multiaddrHint, hname]),
        List.filter_cons_of_pos (by simp [multiaddrHint, hname]), List.flatMap_cons, if_pos rfl]
      exact (List.perm_append_comm_assoc _ _ _).trans (ih.append_left _)
    | false =>
      rw [List.filter_cons_of_pos (by simp [multiaddrHint, hname]),
        List.filter_cons_of_neg (by simp [multiaddrHint, hname]), if_neg Bool.false_ne_true]
      exact ih.cons raddr

theorem lookupRounds_perm {left depth : ℕ} {addrs : List Multiaddr}
    (h : self.lookupRounds late left depth dnsaddrs parsed = .ok addrs) :
    addrs.Perm (parsed ++ dnsaddrs.flatMap (leaves self.dns left)) := by
  induction left generalizing depth dnsaddrs parsed with
  | zero =>
    cases h
    have hnone : dnsaddrs.flatMap (leaves self.dns 0) = [] := by simp [leaves]
    rw [hnone, List.append_nil]
  | succ left ih =>
    unfold lookupRounds at h
    split_ifs at h with hempty
    · rw [List.isEmpty_iff] at hempty
      cases h
      rw [hempty, List.flatMap_nil, List.append_nil]
    · obtain ⟨cached, hcached, h⟩ := bind_eq_ok.1 h
      have hleaves : dnsaddrs.flatMap (leaves self.dns (left + 1)) =
          cached.flatMap fun raddr =>
            if raddr.isDnsaddrTransport then leaves self.dns left raddr else [raddr] := by
        rw [lookupRound_eq hcached, List.flatMap_assoc]
        rfl
      rw [hleaves]
      refine (ih h).trans ?_
      rw [List.append_assoc]
      exact (split_perm self.dns left cached).append_left parsed

theorem nameFree_of_mem_leaves {dns : DnsLookup} {n : ℕ} {addr leaf : Multiaddr}
    (h : leaf ∈ leaves dns n addr) : leaf.NameFree := by
  induction n generalizing addr with
  | zero => cases h
  | succ n ih =>
    obtain ⟨raddr, -, hmem⟩ := List.mem_flatMap.1 h
    split_ifs at hmem with hname
    · exact ih hmem
    · rw [List.mem_singleton.1 hmem]
      exact eq_false_of_ne_true hname

theorem leaves_of_noDeeper {dns : DnsLookup} {d n : ℕ} {addr : Multiaddr}
    (h : NoDeeper dns (d + 1) addr) (hn : d < n) : leaves dns n addr = leaves dns (d + 1) addr := by
  induction d generalizing addr n with
  | zero =>
    obtain ⟨n, rfl⟩ := Nat.exists_eq_succ_of_ne_zero (Nat.ne_of_gt hn)
    refine List.flatMap_congr fun raddr hmem => ?_
    have hfree : raddr.isDnsaddrTransport = false := h raddr hmem
    simp [hfree]
  | succ d ih =>
    obtain ⟨n, rfl⟩ := Nat.exists_eq_succ_of_ne_zero (Nat.ne_of_gt (Nat.zero_lt_of_lt hn))
    refine List.flatMap_congr fun raddr hmem => ?_
    split_ifs
    · exact ih (h raddr hmem) (Nat.lt_of_succ_lt_succ hn)
    · rfl

/-- **What `lookup` resolves an address to.**  Whatever the name servers answer, it ends after at
most `self.1 + 1` rounds, and it succeeds if there are no errors.  If it succeeds, the addresses it
answers contain no names, and are the leaves that are reached by at least one and at most
`self.1 + 1` applications of `dns_lookup`, each as often as there are ways to it: all leaves, if the
tree is no deeper. -/
theorem lookup_leaves (self : DnsAddr) (late : ℕ → Multiaddr → Bool) (raddr : Multiaddr) :
    (∃ n ≤ self.maxDepth + 1, self.Rounds late n 0 [raddr] [] (self.lookup late raddr)) ∧
    (ErrorFree self.dns → (∀ depth addr, late depth addr = false) →
      ∃ addrs, self.lookup late raddr = .ok addrs) ∧
    ∀ addrs, self.lookup late raddr = .ok addrs →
      (∀ addr ∈ addrs, addr.NameFree) ∧
      addrs.Perm (leaves self.dns (self.maxDepth + 1) raddr) ∧
      (NoDeeper self.dns (self.maxDepth + 1) raddr →
        ∀ n > self.maxDepth, addrs.Perm (leaves self.dns n raddr)) := by
  refine ⟨lookupRounds_ends (Nat.zero_add _), fun herror hlate => ?_, fun addrs h => ?_⟩
  · refine lookup_ok_iff.2 fun k _ addr _ => ⟨hlate k addr, fun name _ => herror.ips name, ?_⟩
    exact fun name _ => herror.records _
  · have hperm : addrs.Perm (leaves self.dns (self.maxDepth + 1) raddr) := by
      simpa using lookupRounds_perm h
    refine ⟨fun addr hmem => nameFree_of_mem_leaves (hperm.subset hmem), hperm,
      fun hdeep n hn => ?_⟩
    rw [leaves_of_noDeeper hdeep hn]
    exact hperm

end DnsAddr

end

end XStack
