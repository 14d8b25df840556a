import Cyclers.Async.Unfold
import Cyclers.WebRtc.Peers

/-!
# Connected peers

The stream of the connected peers is unfolded from a map of the states of the peers.  Each change in
the state of a peer is inserted in the map, and the stream yields the peers that are connected by
then, in the order of the map.  It ends when the changes do.
-/

open Async Collection

namespace Cyclers

namespace WebRtc

/-- Await a change in the state of a peer, and list the peers that are connected. -/
def connectedPeersUnfold (peers : IndexMap PeerId PeerState) :
    Option PeerEvent → Option (List PeerId × IndexMap PeerId PeerState)
  | none => none
  | some (peerId, peerState) =>
      some (PeersStream.connectedPeers (peers.insert peerId peerState),
        peers.insert peerId peerState)

/-- The lists that a stream of the connected peers yields for the changes it awaits, and the map it
is left with, when it has not ended. -/
def connectedPeersStream :
    List (Option PeerEvent) → List (List PeerId) × Option (IndexMap PeerId PeerState) :=
  unfold connectedPeersUnfold (IndexMap.empty PeerId PeerState)

/-- One more change gives one more list. -/
theorem connectedPeersStream_concat {events : List PeerEvent}
    (h : (connectedPeersStream (events.map some)).2 = some (IndexMap.ofList events))
    (event : PeerEvent) :
  connectedPeersStream ((events ++ [event]).map some) =
    ((connectedPeersStream (events.map some)).1 ++
        [PeersStream.connectedPeers (IndexMap.ofList (events ++ [event]))],
      some (IndexMap.ofList (events ++ [event])))
  := by
  obtain ⟨peerId, peerState⟩ := event
  rw [connectedPeersStream, List.map_append, IndexMap.ofList_concat]
  apply unfold_append h [some (peerId, peerState)]

/-- The lists are those of the first changes, of ever more of them. -/
theorem connectedPeersStream_eq (events : List PeerEvent) :
  connectedPeersStream (events.map some) =
    ((List.range events.length).map fun k =>
      PeersStream.connectedPeers (IndexMap.ofList (events.take (k + 1))),
    some (IndexMap.ofList events))
  := by
  induction events using List.reverseRecOn with
  | nil => rfl
  | append_singleton events event ih =>
      have htake : ∀ k ∈ List.range events.length,
          (events ++ [event]).take (k + 1) = events.take (k + 1) :=
        fun k hk => List.take_append_of_le_length (List.mem_range.mp hk)
      rw [connectedPeersStream_concat (congrArg Prod.snd ih), ih, List.length_append,
        List.length_singleton, List.range_succ, List.map_append, List.map_singleton,
        List.take_of_length_le (by simp)]
      congr 2
      apply List.map_congr_left
      intro k hk
      rw [htake k hk]

/-- The stream of the connected peers folds the changes.  It yields one list for each change, and
ends when the changes do.  The list for a change has the peers whose last change so far is that they
are connected, each once, in the order in which they first appear among the changes. -/
theorem connectedPeersStream_fold (events : List PeerEvent) :
  ∃ lists peers, connectedPeersStream (events.map some) = (lists, some peers) ∧
    connectedPeersStream (events.map some ++ [none]) = (lists, none) ∧
    lists.length = events.length ∧
    ∀ k list, lists[k]? = some list → list.Nodup ∧
      (∀ peerId, peerId ∈ list ↔ lastValue (events.take (k + 1)) peerId = some .connected) ∧
      list.Pairwise fun peerId peerId' =>
        (events.map Prod.fst).idxOf peerId < (events.map Prod.fst).idxOf peerId'
  := by
  have hlists := connectedPeersStream_eq events
  refine ⟨_, _, hlists, ?_, ?_, ?_⟩
  · rw [connectedPeersStream] at hlists ⊢
    rw [unfold_append (congrArg Prod.snd hlists), hlists]
    exact congrArg (·, none) (List.append_nil _)
  · rw [List.length_map, List.length_range]
  · intro k list hk
    rw [List.getElem?_map] at hk
    obtain ⟨k', hk', rfl⟩ := Option.map_eq_some_iff.mp hk
    obtain ⟨-, rfl⟩ := List.getElem?_eq_some_iff.mp hk'
    rw [List.getElem_range]
    have hpeers := PeersStream.mem_connectedPeers (events.take (k + 1)) (events.drop (k + 1))
    rw [List.take_append_drop] at hpeers
    exact hpeers

/-! ### The streams of the machine -/

/-- What a stream of the connected peers has yielded last is the last list for the events it has
taken. -/
def PeersStream.Unfolds (stream : PeersStream) : Prop :=
  stream.method = .connectedPeers →
    stream.list = (connectedPeersStream (stream.reported.map some)).1.getLast?

theorem PeersStream.Unfolds.take {stream : PeersStream} (h : stream.Yields) (event : PeerEvent) :
  (stream.take event).Unfolds
  := by
  intro hm
  rw [take_method] at hm
  obtain ⟨hpeers, -⟩ := h hm
  rw [take_reported, connectedPeersStream_concat (by rw [connectedPeersStream_eq]),
    List.getLast?_concat, PeersStream.take, hm, IndexMap.ofList_concat, ← hpeers]

namespace PeersState

/-- Along every run, with any other streams of peers beside it, a stream of the connected peers
yields the lists for the events that it takes. -/
theorem unfolds_of_run {tr : List PeersStep} {s : PeersState}
    (h : machine.run PeersState.init tr = some s) (j : ℕ) :
  (s.streams j).Unfolds
  := by
  revert j
  suffices hinv : PeersInv s ∧ ∀ j, (s.streams j).Unfolds from hinv.2
  apply machine.run_invariant (P := fun s => PeersInv s ∧ ∀ j, (s.streams j).Unfolds) _ _ h
  · exact ⟨PeersInv.init, fun _ hm => by cases hm⟩
  · rintro s e t ⟨hinv, hs⟩ ht
    have heffect := effect_of_step ht
    refine ⟨hinv.step heffect, ?_⟩
    apply heffect.forall_streams hs (fun _ _ => rfl)
    · intro j event
      apply PeersStream.Unfolds.take (hinv.yields j)
    · intro j task hj
      exact hj

end PeersState

end WebRtc

end Cyclers
