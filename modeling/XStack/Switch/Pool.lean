import XStack.Switch.Raises

/-!
# What setting up a connection does to the pool

`transport_connect` does not touch the connection pool; all it does to the connections in it is to
close the one it has dialled if the handshake fails.  So it keeps every invariant of the pool that
does not mind connections being closed.

* `SwitchM.KeepsPool` : a block keeps an invariant of the pool and the connections.
* `transportConnect_keepsPool` : the rule for the code.
-/

namespace XStack

variable {J : RawConnPool → Links → Prop} {α : Type}

/-- Among tasks that keep an invariant of the pool and the connections, the block keeps it. -/
def SwitchM.KeepsPool (J : RawConnPool → Links → Prop) (x : SwitchM α) : Prop :=
  x.Keeps fun s => J s.connector s.links

namespace SwitchM

theorem withPool_keepsPool {f : RawConnPool → Links → Except Panic (α × RawConnPool × Links)}
    (hf : ∀ pool links a pool' links', J pool links → f pool links = .ok (a, pool', links') →
      J pool' links') : (withPool f).KeepsPool J := by
  refine Async.Keeps.lock fun s a s' hs h => ?_
  obtain ⟨⟨a', pool, links⟩, hstep, h⟩ := bind_eq_ok.1 h
  cases h
  exact hf _ _ _ _ _ hs hstep

theorem withPool_ok {I : SwitchState → Prop}
    {f : RawConnPool → Links → Except Panic (α × RawConnPool × Links)} {w w' : World SwitchState}
    {a : α} (hw : w.Safe I) (h : withPool f w = (.ok a, w')) :
    ∃ s, I s ∧ f s.connector s.links = .ok (a, w'.state.connector, w'.state.links) := by
  obtain ⟨s, hs, h⟩ := Async.lock_ok hw h
  obtain ⟨⟨a', pool, links⟩, hf, h⟩ := bind_eq_ok.1 h
  obtain ⟨ha, hstate⟩ := Prod.mk.inj (Except.ok.inj h)
  exact ⟨s, hs, by rw [← ha, ← hstate]; exact hf⟩

/-- Setting up a connection does not mind the pool, and the pool does not mind events. -/
theorem frame_pool (hclose : ∀ pool links conn, J pool links → J pool (links.close conn)) :
    Frame (fun s => J s.connector s.links) fun _ => True where
  streamDispatcher _ _ hs := hs
  mutable _ _ hs := hs
  peerBook _ _ hs := hs
  close _ conn hs := hclose _ _ conn hs
  raise _ _ _ hs := hs

end SwitchM

section

variable [Libp2p] {ops : SwitchOptions}

/-- `transport_connect` keeps what is true of the pool and stays true when a connection is
closed. -/
theorem transportConnect_keepsPool
    (hclose : ∀ pool links conn, J pool links → J pool (links.close conn)) (ops : SwitchOptions)
    (raddr : Multiaddr) (attempt : Attempt) (timing : Timing) :
    (transportConnect ops raddr attempt timing).KeepsPool J :=
  (SwitchM.frame_pool hclose).transportConnect_keeps (fun _ _ => trivial) fun _ _ => trivial

end

end XStack
