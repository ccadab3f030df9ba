import XStack.Data.Scan
import XStack.Kad.Invariant

/-!
# The peers close to a key

`RawKBucketTable::closest` starts with the bucket of the key and then visits the buckets below and
above it in turn, until it has `K` peers.  Of every bucket it takes the most recently seen peers
first.  So what it returns are the first `K` peers of the buckets, put together in the order of the
search (`closest_spec`); these are as many different peers as there can be (`closest_complete`).

The loop is given by its body and a bound on the number of its rounds.  Subtractions and indices are
checked as they are in the source.  The search does not need the peers to be in the buckets of their
k-indices (`RawKBucketTable.Searchable`).

## Main definitions

* `RawKBucketTable.closest` : the code.
* `RawKBucketTable.peers` : the stored peers.
* `RawKBucketTable.scan` : all stored peers, in the order of the search.
* `RawKBucketTable.Searchable` : what the search relies on.
-/

namespace XStack

/-- A subtraction of `usize` values. -/
def usizeSub (a b : ℕ) : Except Panic ℕ :=
  if b ≤ a then .ok (a - b) else .error .subtractOverflow

namespace RawKBucketTable

variable {K : ℕ}

/-- `RawKBucketTable::bucket`. -/
def bucket (t : RawKBucketTable K) (index : ℕ) : Except Panic (Option (KBucket K)) :=
  match t.kIndex[index]? with
  | none => .error .indexOutOfBounds
  | some none => .ok none
  | some (some index) =>
    match t.kBuckets[index]? with
    | none => .error .indexOutOfBounds
    | some b => .ok (some b)

/-- What the loop does with a bucket; the flag tells that it breaks. -/
def visit (t : RawKBucketTable K) (index : ℕ) (peers : List PeerId) :
    Except Panic (Bool × List PeerId) := do
  match ← t.bucket index with
  | none => return (false, peers)
  | some b =>
    if K < b.len + peers.length then
      let offset ← usizeSub (b.len + peers.length) K
      if b.len < offset then .error .indexOutOfBounds
      else return (true, peers ++ (b.peers.drop offset).reverse)
    else return (false, peers ++ b.peers.reverse)

/-- The first half of the body of the loop. -/
def visitLower (t : RawKBucketTable K) (kIndex step : ℕ) (peers : List PeerId) :
    Except Panic (Bool × List PeerId) :=
  if step ≤ kIndex then do
    let index ← usizeSub kIndex step
    t.visit index peers
  else .ok (decide (256 ≤ kIndex + step), peers)

/-- The second half of the body of the loop. -/
def visitUpper (t : RawKBucketTable K) (kIndex step : ℕ) (peers : List PeerId) :
    Except Panic (Bool × List PeerId) :=
  if kIndex + step < 256 then t.visit (kIndex + step) peers
  else .ok (decide (kIndex < step), peers)

/-- The loop, for at most `fuel` rounds. -/
def closestLoop (t : RawKBucketTable K) (kIndex : ℕ) :
    ℕ → ℕ → List PeerId → Except Panic (Option (List PeerId))
  | 0, _, _ => .ok none
  | fuel + 1, step, peers =>
    if peers.length < K then do
      let (stop, peers) ← t.visitLower kIndex step peers
      if stop then return some peers
      else
        let (stop, peers) ← t.visitUpper kIndex step peers
        if stop then return some peers else t.closestLoop kIndex fuel (step + 1) peers
    else .ok (some peers)

/-- The bucket at which the search for a key starts. -/
def startIndex (t : RawKBucketTable K) (key : KBucketKey) : ℕ :=
  (key.distance t.localKey).kIndex.getD 1

/-- `RawKBucketTable::closest`, with at most `fuel` rounds of its loop. -/
def closest (t : RawKBucketTable K) (fuel : ℕ) (key : KBucketKey) :
    Except Panic (Option (List PeerId)) := do
  let kIndex := t.startIndex key
  let peers ← (t.bucket kIndex).map fun b => (b.map fun b => b.peers.reverse).getD []
  t.closestLoop kIndex fuel 1 peers

/-- The stored peers. -/
def peers (t : RawKBucketTable K) : List PeerId := t.kBuckets.flatMap KBucket.peers

/-- The stored peers, in the order of the search from the bucket with index `i`. -/
def scan (t : RawKBucketTable K) (i : ℕ) : List PeerId :=
  (zigzag 256 i).flatMap fun j => (t.peersAt j).reverse

theorem startIndex_lt (t : RawKBucketTable K) (key : KBucketKey) : t.startIndex key < 256 := by
  unfold startIndex
  cases h : (key.distance t.localKey).kIndex with
  | none => decide
  | some i => exact KBucketDistance.kIndex_lt h

section Spec

/-- What the search relies on: `kIndex` is a bijection between the k-indices that have a bucket and
the buckets, and the buckets are disjoint, without duplicates and not longer than `K`. -/
structure Searchable (t : RawKBucketTable K) : Prop where
  /-- A slot points to a bucket. -/
  slot_lt : ∀ {i index}, t.slot i = some index → index < t.kBuckets.length
  /-- No bucket has two slots. -/
  slot_inj : ∀ {i j index}, t.slot i = some index → t.slot j = some index → i = j
  /-- Every bucket has a slot. -/
  slot_surj : ∀ {index}, index < t.kBuckets.length → ∃ i, t.slot i = some index
  /-- No bucket has more than `K` entries. -/
  length_le : ∀ i, (t.peersAt i).length ≤ K
  /-- No bucket has duplicates. -/
  nodup : ∀ i, (t.peersAt i).Nodup
  /-- No peer is in two buckets. -/
  disjoint : ∀ {i j peerId}, peerId ∈ t.peersAt i → peerId ∈ t.peersAt j → i = j

/-- A table that stores a family can be searched. -/
theorem Represents.searchable [Sha256] {localKey : KBucketKey} {t : RawKBucketTable K}
    {T : Buckets localKey.place K} (h : t.Represents T) : t.Searchable where
  slot_lt := h.slot_lt
  slot_inj := h.slot_inj
  slot_surj := h.slot_surj
  length_le i := by
    rw [h.peersAt_eq i]
    exact (T.bucket i).length_le
  nodup i := by
    rw [h.peersAt_eq i]
    exact (T.bucket i).nodup
  disjoint {i j peerId} hi hj := by
    rw [h.peersAt_eq] at hi hj
    exact T.eq_of_mem hi hj

variable {t : RawKBucketTable K}

theorem Searchable.bucket_cases (h : t.Searchable) {j : ℕ} (hj : j < 256) :
    (t.bucket j = .ok none ∧ t.peersAt j = []) ∨
    ∃ b, t.bucket j = .ok (some b) ∧ t.peersAt j = b.peers := by
  have hget : t.kIndex[j]? = some (t.slot j) := by simp [slot, hj]
  cases hs : t.slot j with
  | none => exact .inl ⟨by rw [bucket, hget, hs], by rw [peersAt, hs]⟩
  | some index =>
    have hlt := h.slot_lt hs
    have hb : t.kBuckets[index]? = some t.kBuckets[index] := List.getElem?_eq_getElem hlt
    exact .inr ⟨_, by rw [bucket, hget, hs]; simp only [hb], peersAt_of_slot hs hb⟩

/-- **What the loop does with a bucket**: it appends as many of its peers as there is room for, the
most recent ones first, and breaks if there is not enough room. -/
theorem Searchable.visit_spec (h : t.Searchable) {j : ℕ} (hj : j < 256) {peers : List PeerId}
    (hle : peers.length ≤ K) :
    t.visit j peers = .ok (decide (K < (peers ++ (t.peersAt j).reverse).length),
      (peers ++ (t.peersAt j).reverse).take K) := by
  rcases h.bucket_cases hj with ⟨hb, hnil⟩ | ⟨b, hb, hpeers⟩
  · have hfits : ¬ K < peers.length := Nat.not_lt.2 hle
    simp [visit, hb, hnil, hfits, List.take_of_length_le hle, bind, Except.bind, pure, Except.pure]
  · rw [visit, hb, hpeers]
    simp only [bind, Except.bind]
    by_cases hfull : K < b.len + peers.length
    · -- the oldest peers of the bucket are left out
      have hsub : usizeSub (b.len + peers.length) K = .ok (b.len + peers.length - K) :=
        if_pos hfull.le
      have hoffset : ¬ b.len < b.len + peers.length - K := by omega
      have hlong : K < (peers ++ b.peers.reverse).length := by
        rw [List.length_append, List.length_reverse, Nat.add_comm]
        exact hfull
      have hcut : b.peers.length - (K - peers.length) = b.len + peers.length - K := by
        unfold KBucket.len
        omega
      have htake : (peers ++ b.peers.reverse).take K =
          peers ++ (b.peers.drop (b.len + peers.length - K)).reverse := by
        rw [List.take_append, List.take_of_length_le hle, List.take_reverse, hcut]
      simp only [if_pos hfull, hsub, if_neg hoffset, decide_eq_true hlong, htake]
      rfl
    · have hshort : ¬ K < (peers ++ b.peers.reverse).length := by
        rw [List.length_append, List.length_reverse, Nat.add_comm]
        exact hfull
      simp only [if_neg hfull, decide_eq_false hshort,
        List.take_of_length_le (Nat.not_lt.1 hshort)]
      rfl

/-- What a round finds in the bucket below the first one. -/
def lower (t : RawKBucketTable K) (i step : ℕ) : List PeerId :=
  if step ≤ i then (t.peersAt (i - step)).reverse else []

/-- What a round finds in the bucket above the first one. -/
def upper (t : RawKBucketTable K) (i step : ℕ) : List PeerId :=
  if i + step < 256 then (t.peersAt (i + step)).reverse else []

theorem Searchable.visitLower_spec (h : t.Searchable) {i step : ℕ} (hi : i < 256)
    (hin : ¬ (i < step ∧ 256 ≤ i + step)) {peers : List PeerId} (hle : peers.length ≤ K) :
    t.visitLower i step peers = .ok (decide (K < (peers ++ t.lower i step).length),
      (peers ++ t.lower i step).take K) := by
  unfold visitLower lower
  by_cases hlow : step ≤ i
  · have hsub : usizeSub i step = .ok (i - step) := if_pos hlow
    simp only [if_pos hlow, hsub, bind, Except.bind]
    exact h.visit_spec (by omega) hle
  · -- the search goes on above
    have habove : ¬ 256 ≤ i + step := fun hge => hin ⟨Nat.not_le.1 hlow, hge⟩
    have hfits : ¬ K < peers.length := Nat.not_lt.2 hle
    simp only [if_neg hlow, List.append_nil, decide_eq_false habove, decide_eq_false hfits,
      List.take_of_length_le hle]

theorem Searchable.visitUpper_spec (h : t.Searchable) {i step : ℕ}
    (hin : ¬ (i < step ∧ 256 ≤ i + step)) {peers : List PeerId} (hle : peers.length ≤ K) :
    t.visitUpper i step peers = .ok (decide (K < (peers ++ t.upper i step).length),
      (peers ++ t.upper i step).take K) := by
  unfold visitUpper upper
  by_cases hhigh : i + step < 256
  · simp only [if_pos hhigh]
    exact h.visit_spec hhigh hle
  · -- the search goes on below
    have hbelow : ¬ i < step := fun hlt => hin ⟨hlt, Nat.not_lt.1 hhigh⟩
    have hfits : ¬ K < peers.length := Nat.not_lt.2 hle
    simp only [if_neg hhigh, List.append_nil, decide_eq_false hbelow, decide_eq_false hfits,
      List.take_of_length_le hle]

/-- The peers of the buckets that are still to be visited before the given round. -/
def rest (t : RawKBucketTable K) (i step : ℕ) : List PeerId :=
  ((List.range' step (256 - step)).flatMap (around 256 i)).flatMap fun j => (t.peersAt j).reverse

theorem rest_succ (t : RawKBucketTable K) (i : ℕ) {step : ℕ} (hstep : step < 256) :
    t.rest i step = t.lower i step ++ (t.upper i step ++ t.rest i (step + 1)) := by
  have hrange : List.range' step (256 - step) =
      step :: List.range' (step + 1) (256 - (step + 1)) := by
    rw [← List.range'_succ]
    congr 1
    omega
  unfold lower upper
  rw [rest, hrange, List.flatMap_cons, List.flatMap_append, around, List.flatMap_append,
    List.append_assoc]
  congr 1
  · split_ifs <;> simp
  · congr 1
    split_ifs <;> simp

theorem rest_eq_nil (t : RawKBucketTable K) {i step : ℕ} (hlow : i < step)
    (hhigh : 256 ≤ i + step) : t.rest i step = [] := by
  have hnil : (List.range' step (256 - step)).flatMap (around 256 i) = [] := by
    rw [List.flatMap_eq_nil_iff]
    intro step' hmem
    have hge := (List.mem_range'_1.1 hmem).1
    exact around_eq_nil (by omega) (by omega)
  rw [rest, hnil, List.flatMap_nil]

/-- **The loop**: it collects the peers of the buckets that are left, as far as there is room. -/
theorem Searchable.closestLoop_spec (h : t.Searchable) {i : ℕ} (hi : i < 256) {fuel step : ℕ}
    (hstep : step ≤ 256) (hfuel : 256 < step + fuel) {peers : List PeerId}
    (hle : peers.length ≤ K) :
    t.closestLoop i fuel step peers = .ok (some ((peers ++ t.rest i step).take K)) := by
  induction fuel generalizing step peers with
  | zero => omega
  | succ fuel ih =>
    rw [closestLoop]
    by_cases hroom : peers.length < K
    swap
    · -- there are `K` peers
      have hfull : K ≤ peers.length := Nat.not_lt.1 hroom
      rw [if_neg hroom, List.take_append_of_le_length hfull, List.take_of_length_le hle]
    rw [if_pos hroom]
    by_cases hout : i < step ∧ 256 ≤ i + step
    · -- the search has left the table at both ends
      have hlower : t.visitLower i step peers = .ok (true, peers) := by
        rw [visitLower, if_neg (Nat.not_le.2 hout.1), decide_eq_true hout.2]
      simp only [hlower, bind, Except.bind]
      rw [rest_eq_nil t hout.1 hout.2, List.append_nil, List.take_of_length_le hle]
      rfl
    have hlt : step < 256 := by omega
    have hrest : t.rest i step = t.lower i step ++ (t.upper i step ++ t.rest i (step + 1)) :=
      rest_succ t i hlt
    simp only [h.visitLower_spec hi hout hle, bind, Except.bind]
    by_cases hstop : K < (peers ++ t.lower i step).length
    · -- the lower bucket does not fit
      simp only [decide_eq_true hstop, if_true]
      rw [hrest, ← List.append_assoc, List.take_append_of_le_length hstop.le]
      rfl
    have hlow : (peers ++ t.lower i step).length ≤ K := Nat.not_lt.1 hstop
    simp only [decide_eq_false hstop, Bool.false_eq_true, if_false, List.take_of_length_le hlow,
      h.visitUpper_spec hout hlow]
    by_cases hstop' : K < (peers ++ t.lower i step ++ t.upper i step).length
    · -- the upper bucket does not fit
      simp only [decide_eq_true hstop', if_true]
      rw [hrest, ← List.append_assoc, ← List.append_assoc,
        List.take_append_of_le_length hstop'.le]
      rfl
    -- both fit, and the next round follows
    have hhigh : (peers ++ t.lower i step ++ t.upper i step).length ≤ K := Nat.not_lt.1 hstop'
    simp only [decide_eq_false hstop', Bool.false_eq_true, if_false,
      List.take_of_length_le hhigh]
    rw [ih hlt (by omega) hhigh, hrest]
    simp only [List.append_assoc]

/-- **What `closest` returns**: the first `K` peers in the order of the search. -/
theorem Searchable.closest_spec (h : t.Searchable) {fuel : ℕ} (hfuel : 256 ≤ fuel)
    (key : KBucketKey) :
    t.closest fuel key = .ok (some ((t.scan (t.startIndex key)).take K)) := by
  have hi := t.startIndex_lt key
  have hfirst : (t.bucket (t.startIndex key)).map
      (fun b => (b.map fun b => b.peers.reverse).getD []) =
      .ok (t.peersAt (t.startIndex key)).reverse := by
    rcases h.bucket_cases hi with ⟨hb, hnil⟩ | ⟨b, hb, hpeers⟩
    · rw [hb, hnil]
      rfl
    · rw [hb, hpeers]
      rfl
  have hle : (t.peersAt (t.startIndex key)).reverse.length ≤ K := by
    rw [List.length_reverse]
    exact h.length_le _
  simp only [closest, hfirst, bind, Except.bind]
  rw [h.closestLoop_spec hi (by decide) (by omega) hle]
  rfl

/-! ### The search visits all stored peers -/

theorem Searchable.slots_perm (h : t.Searchable) :
    ((List.range 256).filterMap t.slot).Perm (List.range t.kBuckets.length) := by
  have hnodup : ((List.range 256).filterMap t.slot).Nodup :=
    List.nodup_range.filterMap fun i j index hi hj => h.slot_inj hi hj
  refine (List.perm_ext_iff_of_nodup hnodup List.nodup_range).2 fun index => ?_
  rw [List.mem_filterMap, List.mem_range]
  constructor
  · rintro ⟨i, -, hi⟩
    exact h.slot_lt hi
  · intro hlt
    obtain ⟨i, hi⟩ := h.slot_surj hlt
    have hi256 : i < 256 := by
      by_contra hge
      have hnone : t.slot i = none := by simp [slot, hge]
      rw [hnone] at hi
      cases hi
    exact ⟨i, List.mem_range.2 hi256, hi⟩

/-- **The search visits every stored peer once.** -/
theorem Searchable.scan_perm (h : t.Searchable) {i : ℕ} (hi : i < 256) :
    (t.scan i).Perm t.peers := by
  let peersIn (index : ℕ) : List PeerId := (t.kBuckets[index]?.map KBucket.peers).getD []
  have hpeersAt : ∀ j, t.peersAt j = (t.slot j).toList.flatMap peersIn := by
    intro j
    cases hs : t.slot j <;> simp [peersAt, hs, peersIn]
  calc List.Perm (t.scan i) ((List.range 256).flatMap t.peersAt) :=
      (zigzag_perm hi).flatMap fun j _ => (t.peersAt j).reverse_perm
    _ = ((List.range 256).filterMap t.slot).flatMap peersIn := by
      rw [List.filterMap_eq_flatMap_toList, List.flatMap_assoc]
      exact List.flatMap_congr fun j _ => hpeersAt j
    List.Perm _ ((List.range t.kBuckets.length).flatMap peersIn) := h.slots_perm.flatMap_right _
    _ = t.peers := flatMap_range_getElem? t.kBuckets KBucket.peers

theorem Searchable.nodup_scan (h : t.Searchable) (i : ℕ) : (t.scan i).Nodup := by
  refine List.nodup_flatMap.2 ⟨fun j _ => List.nodup_reverse.2 (h.nodup j), ?_⟩
  refine nodup_zigzag.imp fun {j j'} hne peerId hmem hmem' => hne ?_
  exact h.disjoint (List.mem_reverse.1 hmem) (List.mem_reverse.1 hmem')

/-- **`closest` is complete and bounded**: it terminates without a panic and returns different
stored peers, `K` of them or all if there are fewer. -/
theorem closest_complete (h : t.Searchable) (key : KBucketKey) :
    ∃ fuel₀, ∀ fuel, fuel₀ ≤ fuel → ∃ peers, t.closest fuel key = .ok (some peers) ∧
      peers.length = min K t.peers.length ∧ peers.Nodup ∧ ∀ peerId ∈ peers, peerId ∈ t.peers := by
  have hperm := h.scan_perm (t.startIndex_lt key)
  refine ⟨256, fun fuel hfuel => ⟨_, h.closest_spec hfuel key, ?_, ?_, ?_⟩⟩
  · rw [List.length_take, hperm.length_eq]
  · exact (h.nodup_scan _).sublist (List.take_sublist ..)
  · exact fun peerId hmem => hperm.mem_iff.1 (List.mem_of_mem_take hmem)

end Spec

end RawKBucketTable

namespace RawKBucketTable

section Sample

attribute [local instance] Sha256.ofNodes

theorem closest_complete_tableOf132 :
    ∃ fuel₀, ∀ fuel, fuel₀ ≤ fuel → ∃ peers,
      tableOf132.closest fuel (.ofPeerId (node 1)) = .ok (some peers) ∧
      peers.length = min 2 tableOf132.peers.length ∧ peers.Nodup ∧
      ∀ peerId ∈ peers, peerId ∈ tableOf132.peers := by
  obtain ⟨T, hT⟩ := insertPrvLts_represents (by decide) reachable_tableOf132
  exact closest_complete hT.table.searchable _

end Sample

end RawKBucketTable

end XStack
