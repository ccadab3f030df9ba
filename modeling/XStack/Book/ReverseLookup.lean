import XStack.Book
import XStack.Data.Index
import XStack.Lts.Basic

/-!
# The reverse lookup of the peer book

`listen_on` finds the peer that was last inserted with an address.  The book keeps a second map for
it, which `insert` and `remove` update: they release all addresses of the old entry of the peer,
whoever they are attributed to by now, and `insert` claims all addresses of the new one.

So what `listen_on` finds is always right (`listenOn_sound`), but an update of one peer also
withdraws the addresses of its old entry that another peer has taken over
(`listenOn_others_iff`).

## Main definitions

* `PeerBookOp`, `peerBookLts` : the operations of the book, and their runs.
* `RawMemoryPeerBook.Lists` : the entry of a peer lists an address.

## Main results

* `listenOn_sound` : whoever `listen_on` finds is in the book with that address.
* `listenOn_others_iff` : when the updates of one peer leave an address of another one alone.
-/

namespace XStack

namespace RawMemoryPeerBook

variable {book : RawMemoryPeerBook} {A B P : PeerId} {a : Multiaddr} {info : PeerInfo}

/-- The entry of the peer lists the address. -/
def Lists (book : RawMemoryPeerBook) (peerId : PeerId) (raddr : Multiaddr) : Prop :=
  ∃ info, book.peerInfos.get peerId = some info ∧ raddr ∈ info.addrs

/-- The index is sound. -/
def Sound (book : RawMemoryPeerBook) : Prop :=
  IsReverse PeerInfo.addrs book.peerInfos book.peerAddrs

/-! ### One operation -/

theorem peerAddrs_remove (book : RawMemoryPeerBook) (A : PeerId) :
    (book.remove A).2.peerAddrs =
      book.peerAddrs.release PeerInfo.addrs (book.peerInfos.get A) := by
  unfold remove HashMap.release
  cases book.peerInfos.get A <;> rfl

theorem peerAddrs_insert (book : RawMemoryPeerBook) (info : PeerInfo) :
    (book.insert info).2.peerAddrs =
      (book.peerAddrs.release PeerInfo.addrs (book.peerInfos.get info.id)).claim info.addrs
        info.id := by
  unfold insert HashMap.release HashMap.claim
  dsimp only
  cases book.peerInfos.get info.id <;> rfl

/-- **A removal withdraws all addresses of the entry.** -/
theorem listenOn_remove_of_lists (h : book.Lists A a) :
    (book.remove A).2.listenOn a = none := by
  rw [listenOn, peerAddrs_remove, HashMap.get_release]
  exact if_pos h

theorem listenOn_remove (h : ¬ book.Lists A a) :
    (book.remove A).2.listenOn a = book.listenOn a := by
  rw [listenOn, peerAddrs_remove, HashMap.get_release]
  exact if_neg h

theorem listenOn_insert (hnew : a ∉ info.addrs) :
    (book.insert info).2.listenOn a = (book.remove info.id).2.listenOn a := by
  rw [listenOn, peerAddrs_insert, HashMap.claim, HashMap.get_foldl_insert, if_neg hnew,
    listenOn, peerAddrs_remove]

theorem listenOn_modify (book : RawMemoryPeerBook) (P : PeerId) (update : PeerInfo → PeerInfo)
    (a : Multiaddr) : (book.modify P update).listenOn a = book.listenOn a := by
  unfold modify
  cases book.peerInfos.get P <;> rfl

theorem Sound.insert (h : book.Sound) (info : PeerInfo) : (book.insert info).2.Sound := by
  rw [Sound, peerAddrs_insert]
  have hreverse : IsReverse PeerInfo.addrs book.peerInfos book.peerAddrs := h
  exact hreverse.insert info.id { info with disappear := none }

theorem Sound.remove (h : book.Sound) (A : PeerId) : (book.remove A).2.Sound := by
  rw [Sound, peerAddrs_remove]
  exact IsReverse.remove h A

theorem Sound.modify (h : book.Sound) {update : PeerInfo → PeerInfo}
    (haddrs : ∀ info, (update info).addrs = info.addrs) (P : PeerId) :
    (book.modify P update).Sound := by
  unfold RawMemoryPeerBook.modify
  cases hget : book.peerInfos.get P with
  | none => exact h
  | some info => exact IsReverse.replace h hget (haddrs info)

end RawMemoryPeerBook

open RawMemoryPeerBook

/-! ### Runs -/

/-- The operations that change the book. -/
inductive PeerBookOp where
  | insert (info : PeerInfo)
  | remove (peerId : PeerId)
  | appear (peerId : PeerId) (timestamp : SystemTime)
  | disappear (peerId : PeerId) (timestamp : SystemTime)
  deriving DecidableEq, Repr

namespace PeerBookOp

/-- The book after an operation. -/
def apply (book : RawMemoryPeerBook) : PeerBookOp → RawMemoryPeerBook
  | .insert info => (book.insert info).2
  | .remove peerId => (book.remove peerId).2
  | .appear peerId timestamp => book.appear peerId timestamp
  | .disappear peerId timestamp => book.disappear peerId timestamp

/-- The operation leaves the entry of `B` alone and claims the address for nobody else. -/
def Others (B : PeerId) (a : Multiaddr) : PeerBookOp → Prop
  | .insert info => info.id ≠ B ∧ a ∉ info.addrs
  | .remove peerId => peerId ≠ B
  | _ => True

/-- The operation drops an entry that lists the address. -/
def Drops (book : RawMemoryPeerBook) (a : Multiaddr) : PeerBookOp → Prop
  | .insert info => book.Lists info.id a
  | .remove peerId => book.Lists peerId a
  | _ => False

end PeerBookOp

/-- The runs of the operations; each holds the mutex of the book, so it is one step. -/
def peerBookLts : Lts RawMemoryPeerBook PeerBookOp where
  init book := book = .default
  step book op book' := book' = op.apply book

variable {book : RawMemoryPeerBook} {A B P : PeerId} {a : Multiaddr} {op : PeerBookOp}

/-- **No operation makes the index unsound.** -/
theorem PeerBookOp.apply_sound (h : book.Sound) (op : PeerBookOp) : (op.apply book).Sound := by
  cases op with
  | insert info => exact h.insert info
  | remove peerId => exact h.remove peerId
  | appear peerId timestamp => exact h.modify (by intro info; rfl) peerId
  | disappear peerId timestamp => exact h.modify (by intro info; rfl) peerId

/-- **The reverse lookup is sound**: the peer that `listen_on` finds has an entry in the book, and
its entry lists the address. -/
theorem listenOn_sound (h : peerBookLts.Reachable book) (hfind : book.listenOn a = some P) :
    ∃ info, book.get P = some info ∧ a ∈ info.addrs := by
  have hsound : book.Sound := h.invariant
    (fun book hinit => by
      cases hinit
      exact IsReverse.empty)
    fun book op book' hsound hstep => by
      cases hstep
      exact op.apply_sound hsound
  exact hsound a P hfind

theorem RawMemoryPeerBook.listenOn_remove_iff (hfind : book.listenOn a = some B) :
    (book.remove A).2.listenOn a = some B ↔ ¬ book.Lists A a := by
  by_cases hlists : book.Lists A a
  · simp [listenOn_remove_of_lists hlists, hlists]
  · simp [listenOn_remove hlists, hlists, hfind]

/-- **What an operation on another peer does to an address of `B`.** -/
theorem PeerBookOp.listenOn_apply_iff (hop : op.Others B a) (hfind : book.listenOn a = some B) :
    (op.apply book).listenOn a = some B ↔ ¬ op.Drops book a := by
  cases op with
  | insert info =>
    simp only [apply, listenOn_insert hop.2]
    exact listenOn_remove_iff hfind
  | remove peerId => exact listenOn_remove_iff hfind
  | appear peerId timestamp => exact iff_of_true ((listenOn_modify ..).trans hfind) not_false
  | disappear peerId timestamp => exact iff_of_true ((listenOn_modify ..).trans hfind) not_false

/-- The runs of operations that leave the entry of `B` alone and do not claim the address. -/
def othersLts (B : PeerId) (a : Multiaddr) : Lts RawMemoryPeerBook PeerBookOp where
  init := peerBookLts.init
  step book op book' := peerBookLts.step book op book' ∧ op.Others B a

/-- **When the updates of other peers leave an address of `B` alone**: a removal of `A` and all
insertions for `A` do so if and only if the entry of `A` does not list the address, and a run of
such updates does so in all its states if and only if none of its steps drops an entry that lists
the address. -/
theorem listenOn_others_iff (hbook : peerBookLts.Reachable book)
    (hfind : book.listenOn a = some B) :
    (∀ A, A ≠ B → (((book.remove A).2.listenOn a = some B ∧
      ∀ info : PeerInfo, info.id = A → a ∉ info.addrs →
        (book.insert info).2.listenOn a = some B) ↔ ¬ book.Lists A a)) ∧
    ∀ h book', ((othersLts B a).startingAt book).RunWhere (fun _ s op => ¬ op.Drops s a) h book' ↔
      ((othersLts B a).startingAt book).RunWhere (fun _ s _ => s.listenOn a = some B) h book' ∧
        book'.listenOn a = some B := by
  refine ⟨fun A _ => ⟨fun hkeeps => (listenOn_remove_iff hfind).1 hkeeps.1, fun hlists => ?_⟩,
    fun h book' => Lts.RunWhere.visits_iff ?_ ?_ ?_⟩
  · -- an insertion first withdraws what a removal does
    refine ⟨(listenOn_remove_iff hfind).2 hlists, fun info hid hnew => ?_⟩
    rw [listenOn_insert hnew, hid]
    exact (listenOn_remove_iff hfind).2 hlists
  · rintro s rfl
    exact hfind
  · rintro h s op s' - hs hdrops ⟨rfl, hop⟩
    exact (op.listenOn_apply_iff hop hs).2 hdrops
  · rintro h s op s' - hs ⟨rfl, hop⟩ hs'
    exact (op.listenOn_apply_iff hop hs).1 hs'

section Sample

/-- An address. -/
def sharedAddr : Multiaddr := [.ip4 0x0a000002, .tcp 4001, .tls]

/-- A peer that listens on the address. -/
def sharer (n : UInt8) : PeerInfo := ⟨⟨[0x00, 0x01, n]⟩, [sharedAddr], [], none, none⟩

/-- The second peer has taken over the address of the first one. -/
def takenOver : RawMemoryPeerBook :=
  (PeerBookOp.insert (sharer 2)).apply ((PeerBookOp.insert (sharer 1)).apply .default)

theorem reachable_takenOver : peerBookLts.Reachable takenOver :=
  ((Lts.Reachable.start rfl).snoc rfl).snoc rfl

theorem listenOn_takenOver : takenOver.listenOn sharedAddr = some (sharer 2).id := by
  decide

theorem listenOn_sound_takenOver :
    ∃ info, takenOver.get (sharer 2).id = some info ∧ sharedAddr ∈ info.addrs :=
  listenOn_sound reachable_takenOver listenOn_takenOver

theorem listenOn_others_iff_takenOver :
    (∀ A, A ≠ (sharer 2).id → (((takenOver.remove A).2.listenOn sharedAddr = some (sharer 2).id ∧
      ∀ info : PeerInfo, info.id = A → sharedAddr ∉ info.addrs →
        (takenOver.insert info).2.listenOn sharedAddr = some (sharer 2).id) ↔
          ¬ takenOver.Lists A sharedAddr)) ∧
    ∀ h book', ((othersLts (sharer 2).id sharedAddr).startingAt takenOver).RunWhere
        (fun _ s op => ¬ op.Drops s sharedAddr) h book' ↔
      ((othersLts (sharer 2).id sharedAddr).startingAt takenOver).RunWhere
        (fun _ s _ => s.listenOn sharedAddr = some (sharer 2).id) h book' ∧
        book'.listenOn sharedAddr = some (sharer 2).id :=
  listenOn_others_iff reachable_takenOver listenOn_takenOver

/-- The removal of the first peer and its insertion without the address both unlist the second
one. -/
theorem takenOver_unlisted :
    peerBookLts.Reachable takenOver ∧ (sharer 1).id ≠ (sharer 2).id ∧
    takenOver.listenOn sharedAddr = some (sharer 2).id ∧
    (takenOver.remove (sharer 1).id).2.listenOn sharedAddr = none ∧
    (takenOver.insert { sharer 1 with addrs := [] }).2.listenOn sharedAddr = none :=
  ⟨reachable_takenOver, by decide, listenOn_takenOver, by decide, by decide⟩

end Sample

end XStack
