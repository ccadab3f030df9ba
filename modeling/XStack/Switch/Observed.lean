import XStack.Data.Window
import XStack.Switch.Basic

/-!
# The observed addresses

A switch remembers the addresses under which its peers have seen it, in a buffer with a maximum
length.  The buffer is a sliding window over all addresses that have been reported, unless its
maximum length is configured to be 0: then it grows with every address (`kept_without_limit`).

## Main results

* `observed_window_iff` : when the buffer is a window.
-/

namespace XStack

namespace MutableSwitch

/-- An update slides the window over the addresses. -/
theorem setObservedAddrs_eq (s : MutableSwitch) (addrs : List Multiaddr) :
    s.setObservedAddrs addrs =
      { s with observedAddrs := addrs.foldl (slide s.maxObservedAddrsLen) s.observedAddrs } := by
  induction addrs generalizing s with
  | nil => rfl
  | cons addr addrs ih => exact ih _

theorem foldl_setObservedAddrs (s : MutableSwitch) (updates : List (List Multiaddr)) :
    updates.foldl setObservedAddrs s = { s with
      observedAddrs := updates.flatten.foldl (slide s.maxObservedAddrsLen) s.observedAddrs } := by
  induction updates generalizing s with
  | nil => rfl
  | cons addrs updates ih =>
    rw [List.foldl_cons, ih, setObservedAddrs_eq, List.flatten_cons, List.foldl_append]

/-- **When the observed addresses are a sliding window**: after any sequence of updates, of whatever
sizes, they are the last ones reported, as many as the maximum length allows, if and only if this is
not 0 or nothing has been reported. -/
theorem observed_window_iff (maxLen : ℕ) (updates : List (List Multiaddr)) :
    (updates.foldl setObservedAddrs (new maxLen)).observedAddrs =
        updates.flatten.rtake (min maxLen updates.flatten.length) ↔
      maxLen ≠ 0 ∨ updates.flatten = [] := by
  have hfold : (updates.foldl setObservedAddrs (new maxLen)).observedAddrs =
      updates.flatten.foldl (slide maxLen) [] := by
    rw [foldl_setObservedAddrs]
    rfl
  rw [hfold]
  rcases Nat.eq_zero_or_pos maxLen with rfl | hpos
  · rw [slide_zero, List.nil_append, Nat.zero_min, List.rtake_zero]
    simp
  · refine iff_of_true ?_ (.inl (Nat.ne_of_gt hpos))
    have hwindow := slide_eq_rtake (Nat.ne_of_gt hpos) [] updates.flatten
    rw [List.rtake_nil, List.nil_append] at hwindow
    rw [hwindow]
    -- there may be fewer addresses than the window can hold
    unfold List.rtake
    congr 1
    omega

/-- A buffer of maximum length 0 holds an address. -/
theorem kept_without_limit :
    ¬ ∀ (maxLen : ℕ) (updates : List (List Multiaddr)),
      (updates.foldl setObservedAddrs (new maxLen)).observedAddrs =
        updates.flatten.rtake (min maxLen updates.flatten.length) := by
  intro hall
  exact absurd (hall 0 [[[.ip4 0x7f000001, .tcp 4001]]]) (by decide)

end MutableSwitch

end XStack
