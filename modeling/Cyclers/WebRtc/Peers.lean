import Cyclers.Collection.IndexMap
import Cyclers.WebRtc.Driver
import Mathlib.Data.List.TakeDrop

/-!
# Peers

The streams of changes in the state of the peers, and those of the connected peers, share the
socket behind a mutex.  A stream takes an event out of the socket while it holds the lock, and no
other stream gets that event.
-/

open Async Collection

namespace Cyclers

namespace WebRtc

/-- Whether a peer is connected. -/
inductive PeerState where
  | connected
  | disconnected
  deriving DecidableEq

/-- An event of the socket: the state of a peer has changed. -/
abbrev PeerEvent := PeerId × PeerState

/-- The methods of the source that give a stream of peers. -/
inductive PeersMethod where
  | peerChanges
  | connectedPeers
  deriving DecidableEq

/-- What a stream of peers does: it is to ask for the lock of the socket; it awaits the lock, or
holds it and awaits an event; it has ended; it has been dropped. -/
inductive PeersTask where
  | socket
  | lock
  | ended
  | dropped
  deriving DecidableEq

/-- A stream of peers: its method, what it does, the states of the peers it knows of, the events it
has taken, and the list of connected peers that it has yielded last. -/
structure PeersStream where
  method : PeersMethod
  task : PeersTask
  peers : IndexMap PeerId PeerState
  reported : List PeerEvent
  list : Option (List PeerId)

namespace PeersStream

/-- A stream that has been obtained. -/
def new (method : PeersMethod) : PeersStream where
  method := method
  task := .socket
  peers := IndexMap.empty PeerId PeerState
  reported := []
  list := none

/-- The peers that are connected, in the order in which they were first heard of. -/
def connectedPeers (peers : IndexMap PeerId PeerState) : List PeerId :=
  peers.keysWith fun state => state = .connected

/-- The stream takes an event, and releases the lock.  A stream of changes yields the event, and a
stream of the connected peers yields the list of them. -/
def take (stream : PeersStream) (event : PeerEvent) : PeersStream :=
  match stream.method with
  | .peerChanges =>
      { stream with
        task := .socket
        reported := stream.reported ++ [event] }
  | .connectedPeers =>
      { stream with
        task := .socket
        reported := stream.reported ++ [event]
        peers := stream.peers.insert event.1 event.2
        list := some (connectedPeers (stream.peers.insert event.1 event.2)) }

@[simp]
theorem take_method (stream : PeersStream) (event : PeerEvent) :
  (stream.take event).method = stream.method
  := by
  rw [take]
  split <;> rfl

@[simp]
theorem take_reported (stream : PeersStream) (event : PeerEvent) :
  (stream.take event).reported = stream.reported ++ [event]
  := by
  rw [take]
  split <;> rfl

/-- The list that a stream of the connected peers has yielded is the one of the events it has
taken. -/
def Yields (stream : PeersStream) : Prop :=
  stream.method = .connectedPeers → stream.peers = IndexMap.ofList stream.reported ∧
    ∀ list, stream.list = some list → list = connectedPeers stream.peers

theorem Yields.new (method : PeersMethod) :
  Yields (new method)
  := fun _ => ⟨rfl, nofun⟩

theorem Yields.take {stream : PeersStream} (h : Yields stream) (event : PeerEvent) :
  Yields (stream.take event)
  := by
  intro hm
  rw [take_method] at hm
  obtain ⟨hpeers, -⟩ := h hm
  rw [PeersStream.take, hm]
  refine ⟨?_, ?_⟩
  · change stream.peers.insert event.1 event.2 = IndexMap.ofList (stream.reported ++ [event])
    rw [hpeers, IndexMap.ofList_concat]
  · intro list hl
    exact (Option.some.inj hl).symm

/-- The peers that are connected after some events are those whose last event is that they are
connected, each once, in the order in which they first appear, also when more events come. -/
theorem mem_connectedPeers (events rest : List PeerEvent) :
  (connectedPeers (IndexMap.ofList events)).Nodup ∧
    (∀ peerId, peerId ∈ connectedPeers (IndexMap.ofList events) ↔
      lastValue events peerId = some .connected) ∧
    (connectedPeers (IndexMap.ofList events)).Pairwise fun peerId peerId' =>
      ((events ++ rest).map Prod.fst).idxOf peerId < ((events ++ rest).map Prod.fst).idxOf peerId'
  := by
  rw [connectedPeers]
  refine ⟨IndexMap.nodup_keysWith _ _, ?_, ?_⟩
  · intro peerId
    rw [IndexMap.mem_keysWith]
    constructor
    · rintro ⟨state, hmem, hstate⟩
      rw [IndexMap.mem_ofList] at hmem
      rw [hmem, of_decide_eq_true hstate]
    · intro hlast
      use .connected
      rw [IndexMap.mem_ofList]
      exact ⟨hlast, rfl⟩
  · apply List.Pairwise.sublist (IndexMap.keysWith_sublist _ _)
    apply IndexMap.pairwise_keys_ofList

/-- The list is the set of the peers whose last event that has been taken is that they are
connected. -/
theorem Yields.mem_list {stream : PeersStream} (h : Yields stream)
    (hm : stream.method = .connectedPeers) {list : List PeerId} (hl : stream.list = some list) :
  list.Nodup ∧ ∀ peerId, peerId ∈ list ↔ lastValue stream.reported peerId = some .connected
  := by
  obtain ⟨hpeers, hlist⟩ := h hm
  obtain ⟨hnodup, hmem, -⟩ := mem_connectedPeers stream.reported []
  rw [hlist list hl, hpeers]
  exact ⟨hnodup, hmem⟩

end PeersStream

/-- The socket and the streams of peers: whether the driver has given the socket away; the events
of the socket, whether it has ended, and the number of events that have been taken; the lock of the
socket; the number of streams obtained, and what they are. -/
structure PeersState where
  connected : Bool
  events : List PeerEvent
  ended : Bool
  taken : ℕ
  socket : Mutex ℕ
  count : ℕ
  streams : ℕ → PeersStream

/-- What happens: the driver gives the socket away; an event comes, or the socket ends; a stream is
obtained, or dropped; a stream asks for the lock; it takes an event, or the end of the events. -/
inductive PeersStep where
  | connect
  | event : PeerEvent → PeersStep
  | socketEnd
  | obtain : PeersMethod → PeersStep
  | drop : ℕ → PeersStep
  | lock : ℕ → PeersStep
  | take : ℕ → PeersStep
  | takeEnd : ℕ → PeersStep
  deriving DecidableEq

namespace PeersState

/-- The source has been made, and nothing has happened. -/
def init : PeersState where
  connected := false
  events := []
  ended := false
  taken := 0
  socket := Mutex.new ℕ
  count := 0
  streams _ := { PeersStream.new .peerChanges with task := .dropped }

/-- A stream is held by the program. -/
def Held (s : PeersState) (j : ℕ) : Prop :=
  (s.streams j).task ≠ .dropped

/-- Change the stream `j`. -/
def setStream (s : PeersState) (j : ℕ) (stream : PeersStream) : PeersState :=
  { s with streams := Function.update s.streams j stream }

/-- The stream `j` holds the lock. -/
def Locks (s : PeersState) (j : ℕ) : Prop :=
  (s.streams j).task = .lock ∧ s.socket.holder = some j

instance (s : PeersState) (j : ℕ) : Decidable (s.Locks j) :=
  inferInstanceAs (Decidable (_ ∧ _))

/-- One step, when it may happen. -/
def step (s : PeersState) : PeersStep → Option PeersState
  | .connect => if s.connected then none else some { s with connected := true }
  | .event event =>
      if s.connected = true ∧ s.ended = false then
        some { s with events := s.events ++ [event] }
      else none
  | .socketEnd =>
      if s.connected = true ∧ s.ended = false then some { s with ended := true } else none
  | .obtain method =>
      some ({ s with count := s.count + 1 }.setStream s.count (PeersStream.new method))
  | .drop j =>
      if j < s.count then
        some ({ s with socket := s.socket.leave j }.setStream j
          { s.streams j with task := .dropped })
      else none
  | .lock j =>
      if s.connected = true ∧ (s.streams j).task = .socket then
        some ({ s with socket := s.socket.lock j }.setStream j { s.streams j with task := .lock })
      else none
  | .take j =>
      if s.Locks j then
        match s.events[s.taken]? with
        | some event =>
            some ({ s with
              socket := s.socket.leave j
              taken := s.taken + 1 }.setStream j ((s.streams j).take event))
        | none => none
      else none
  | .takeEnd j =>
      if s.Locks j ∧ s.ended = true ∧ s.events.length ≤ s.taken then
        some ({ s with socket := s.socket.leave j }.setStream j
          { s.streams j with task := .ended })
      else none

/-- The socket and the streams of peers as a machine. -/
def machine : Machine PeersState PeersStep where
  step := step

@[simp]
theorem setStream_self (s : PeersState) (j : ℕ) (stream : PeersStream) :
  (s.setStream j stream).streams j = stream
  := by simp [setStream]

@[simp]
theorem setStream_of_ne (s : PeersState) {i j : ℕ} (h : i ≠ j) (stream : PeersStream) :
  (s.setStream j stream).streams i = s.streams i
  := by simp [setStream, h]

/-- What the steps must be for the streams to see the same: an event is taken by a stream only when
no other one is held, and no stream is obtained once an event has been taken. -/
def Alone (s : PeersState) : PeersStep → Prop
  | .obtain _ => s.taken = 0
  | .take j => ∀ i, s.Held i → i = j
  | _ => True

/-- The steps, as far as the events and the streams go: a stream takes an event; a stream is
obtained; or the streams are what they were, but for what they do, and none is held that was
not. -/
inductive Effect (s : PeersState) : PeersStep → PeersState → Prop where
  | take (j : ℕ) (event : PeerEvent) (socket : Mutex ℕ) : s.Held j →
      s.events[s.taken]? = some event →
      Effect s (.take j) ({ s with
        socket := socket
        taken := s.taken + 1 }.setStream j ((s.streams j).take event))
  | obtain (method : PeersMethod) :
      Effect s (.obtain method)
        ({ s with count := s.count + 1 }.setStream s.count (PeersStream.new method))
  | other (e : PeersStep) (t : PeersState) (events : List PeerEvent) : s.Alone e →
      t.events = s.events ++ events → t.taken = s.taken →
      (∀ j, ∃ task, t.streams j = { s.streams j with task := task } ∧
        (task ≠ .dropped → s.Held j)) →
      Effect s e t

/-- A stream that does not change. -/
theorem exists_task (s : PeersState) (j : ℕ) :
  ∃ task, s.streams j = { s.streams j with task := task } ∧ (task ≠ .dropped → s.Held j)
  := ⟨(s.streams j).task, rfl, id⟩

/-- What one stream does changes. -/
theorem exists_task_setStream {s t : PeersState} (ht : t.streams = s.streams) {j : ℕ}
    {task : PeersTask} (htask : task ≠ .dropped → s.Held j) (i : ℕ) :
  ∃ task', (t.setStream j { s.streams j with task := task }).streams i =
      { s.streams i with task := task' } ∧ (task' ≠ .dropped → s.Held i)
  := by
  by_cases hi : i = j
  · subst hi
    rw [setStream_self]
    exact ⟨task, rfl, htask⟩
  · rw [setStream_of_ne _ hi, ht]
    apply exists_task

/-- What a step does is one of the effects. -/
theorem effect_of_step {s t : PeersState} {e : PeersStep} (h : machine.step s e = some t) :
  Effect s e t
  := by
  change s.step e = some t at h
  cases e with
  | connect =>
      rw [step] at h
      split at h <;> cases h
      exact Effect.other _ _ [] trivial (List.append_nil _).symm rfl (exists_task s)
  | event event =>
      rw [step] at h
      split at h <;> cases h
      exact Effect.other _ _ [event] trivial rfl rfl (exists_task s)
  | socketEnd =>
      rw [step] at h
      split at h <;> cases h
      exact Effect.other _ _ [] trivial (List.append_nil _).symm rfl (exists_task s)
  | obtain method =>
      rw [step] at h
      cases h
      exact Effect.obtain method
  | drop j =>
      rw [step] at h
      split at h <;> cases h
      exact Effect.other _ _ [] trivial (List.append_nil _).symm rfl
        (exists_task_setStream rfl fun hn => absurd rfl hn)
  | lock j =>
      rw [step] at h
      split at h <;> cases h
      obtain ⟨-, htask⟩ := ‹_ ∧ _›
      refine Effect.other _ _ [] trivial (List.append_nil _).symm rfl
        (exists_task_setStream rfl fun _ => ?_)
      rw [Held, htask]
      exact nofun
  | take j =>
      rw [step] at h
      split at h
      · rename_i hlocks
        split at h <;> cases h
        refine Effect.take j _ _ ?_ ‹_›
        rw [Held, hlocks.1]
        exact nofun
      · cases h
  | takeEnd j =>
      rw [step] at h
      split at h <;> cases h
      obtain ⟨hlocks, -, -⟩ := ‹_ ∧ _›
      refine Effect.other _ _ [] trivial (List.append_nil _).symm rfl
        (exists_task_setStream rfl fun _ => ?_)
      rw [Held, hlocks.1]
      exact nofun

/-- What a new stream meets, and keeps when it takes an event, all streams keep, if it does not
depend on what a stream does. -/
theorem Effect.forall_streams {s t : PeersState} {e : PeersStep} (hs : Effect s e t)
    {P : PeersStream → Prop} (h : ∀ j, P (s.streams j))
    (hnew : ∀ method, P (PeersStream.new method)) (htake : ∀ j event, P ((s.streams j).take event))
    (htask : ∀ j task, P (s.streams j) → P { s.streams j with task := task }) (j : ℕ) :
  P (t.streams j)
  := by
  cases hs with
  | take i event socket hi hget =>
      by_cases hj : j = i
      · subst hj
        rw [setStream_self]
        apply htake
      · rw [setStream_of_ne _ hj]
        apply h
  | obtain method =>
      by_cases hj : j = s.count
      · subst hj
        rw [setStream_self]
        apply hnew
      · rw [setStream_of_ne _ hj]
        apply h
  | other e t events he hevents htaken hstreams =>
      obtain ⟨task, hj, -⟩ := hstreams j
      rw [hj]
      apply htask j task (h j)

/-! ### What the streams have taken -/

/-- No stream has taken more than there is, and the lists are those of what has been taken. -/
structure PeersInv (s : PeersState) : Prop where
  taken : s.taken ≤ s.events.length
  yields : ∀ j, (s.streams j).Yields

theorem PeersInv.init :
  PeersInv init
  := ⟨Nat.le_refl _, fun _ => nofun⟩

/-- A stream has all the events that have been taken, and, when no event is left, the list that a
stream of the connected peers has yielded last is the set of the peers whose last event is that they
are connected. -/
def Sees (s : PeersState) (stream : PeersStream) : Prop :=
  stream.reported = s.events.take s.taken ∧
    (stream.method = .connectedPeers → s.taken = s.events.length →
      ∀ list, stream.list = some list → list.Nodup ∧
        ∀ peerId, peerId ∈ list ↔ lastValue s.events peerId = some .connected)

/-- Every stream that is held sees what the others do. -/
def Complete (s : PeersState) : Prop :=
  ∀ j, s.Held j → s.Sees (s.streams j)

/-- A stream that has all the events that have been taken sees what the others do. -/
theorem sees_iff {s : PeersState} {stream : PeersStream} (h : stream.Yields) :
  s.Sees stream ↔ stream.reported = s.events.take s.taken
  := by
  constructor
  · exact And.left
  · intro hreported
    refine ⟨hreported, ?_⟩
    intro hm htaken list hl
    rw [htaken, List.take_length] at hreported
    rw [← hreported]
    apply h.mem_list hm hl

theorem PeersInv.step {s t : PeersState} {e : PeersStep} (h : PeersInv s) (hs : Effect s e t) :
  PeersInv t
  := by
  constructor
  · cases hs with
    | take j event socket hj hget => exact (List.getElem?_eq_some_iff.mp hget).1
    | obtain method => exact h.taken
    | other e t events he hevents htaken hstreams =>
        rw [hevents, htaken, List.length_append]
        exact Nat.le_add_right_of_le h.taken
  · apply hs.forall_streams h.yields PeersStream.Yields.new
    · intro j event
      apply (h.yields j).take
    · intro j task hj
      exact hj

/-- The streams see the same after a step exactly when the step is as it must be. -/
theorem Complete.step_iff {s t : PeersState} {e : PeersStep} (h : Complete s) (hinv : PeersInv s)
    (hs : Effect s e t) :
  Complete t ↔ s.Alone e
  := by
  have hinv' : PeersInv t := hinv.step hs
  have hsees : ∀ i, t.Sees (t.streams i) ↔ (t.streams i).reported = t.events.take t.taken :=
    fun i => sees_iff (hinv'.yields i)
  have hbefore : ∀ i, s.Held i → (s.streams i).reported = s.events.take s.taken :=
    fun i hi => (h i hi).1
  cases hs with
  | take j event socket hj hget =>
      have hlt : s.taken < s.events.length := (List.getElem?_eq_some_iff.mp hget).1
      constructor
      · intro hc i hi
        by_contra hne
        have hi' := hc i (by rwa [Held, setStream_of_ne _ hne])
        rw [hsees, setStream_of_ne _ hne] at hi'
        have hlen := congrArg List.length (hi'.symm.trans (hbefore i hi))
        change (s.events.take (s.taken + 1)).length = _ at hlen
        rw [List.length_take_of_le hlt, List.length_take_of_le hinv.taken] at hlen
        exact Nat.succ_ne_self _ hlen
      · intro halone i hi
        by_cases hij : i = j
        · subst hij
          rw [hsees, setStream_self, PeersStream.take_reported, hbefore i hj]
          change s.events.take s.taken ++ [event] = s.events.take (s.taken + 1)
          rw [List.take_add_one, hget]
          rfl
        · rw [Held, setStream_of_ne _ hij] at hi
          cases hij (halone i hi)
  | obtain method =>
      constructor
      · intro hc
        have hnew := hc s.count (by rw [Held, setStream_self]; exact nofun)
        rw [hsees, setStream_self] at hnew
        have hlen := congrArg List.length hnew
        change 0 = (s.events.take s.taken).length at hlen
        rw [List.length_take_of_le hinv.taken] at hlen
        exact hlen.symm
      · intro htaken i hi
        change s.taken = 0 at htaken
        rw [hsees]
        change _ = s.events.take s.taken
        by_cases hij : i = s.count
        · subst hij
          rw [setStream_self, htaken]
          rfl
        · rw [Held, setStream_of_ne _ hij] at hi
          rw [setStream_of_ne _ hij]
          apply hbefore i hi
  | other e t events he hevents htaken hstreams =>
      apply iff_of_true _ he
      intro i hi
      obtain ⟨task, hstream, hheld⟩ := hstreams i
      rw [hsees, hevents, htaken, List.take_append_of_le_length hinv.taken, hstream]
      apply hbefore i (hheld _)
      rw [Held, hstream] at hi
      exact hi

theorem PeersInv.of_run {tr : List PeersStep} {s : PeersState}
    (h : machine.run PeersState.init tr = some s) :
  PeersInv s
  := by
  apply machine.run_invariant (P := PeersInv) PeersInv.init _ h
  intro s e t hs ht
  apply hs.step (effect_of_step ht)

/-- When no stream misses what another one has taken.  Along a run the streams that are held have
all taken the same events, and the lists are those of all events when no event is left, exactly when
an event is taken only by a stream that is alone, and no stream is obtained once an event has been
taken. -/
theorem complete_iff_alone {tr : List PeersStep} {s : PeersState}
    (h : machine.run PeersState.init tr = some s) :
  (∀ tr' u, tr' <+: tr → machine.run PeersState.init tr' = some u → u.Complete) ↔
    machine.Along Alone PeersState.init tr
  := by
  revert tr s
  apply machine.run_induction (P := fun tr _ =>
    (∀ tr' u, tr' <+: tr → machine.run PeersState.init tr' = some u → u.Complete) ↔
      machine.Along Alone PeersState.init tr)
  · refine iff_of_true ?_ trivial
    intro tr' u hpre hu
    obtain rfl := List.prefix_nil.mp hpre
    obtain rfl := Option.some.inj hu
    intro j hj
    cases hj rfl
  · intro tr s e t hr hiff ht
    have hrun : machine.run PeersState.init (tr ++ [e]) = some t := by
      rw [Machine.run_concat, hr]
      exact ht
    have hstep : s.Complete → (t.Complete ↔ s.Alone e) :=
      fun hc => hc.step_iff (PeersInv.of_run hr) (effect_of_step ht)
    rw [machine.along_append, ← hiff]
    constructor
    · intro hc
      have hbefore : s.Complete := hc tr s (List.prefix_append _ _) hr
      refine ⟨fun tr' u hpre => hc tr' u (hpre.trans (List.prefix_append _ _)), ?_⟩
      intro s' hs'
      rw [hr] at hs'
      obtain rfl := Option.some.inj hs'
      exact ⟨(hstep hbefore).mp (hc _ t List.prefix_rfl hrun), fun _ _ => trivial⟩
    · rintro ⟨hc, halone⟩ tr' u hpre hu
      rcases List.prefix_concat_iff.mp hpre with rfl | hpre
      · rw [hrun] at hu
        obtain rfl := Option.some.inj hu
        exact (hstep (hc tr s List.prefix_rfl hr)).mpr (halone s hr).1
      · apply hc tr' u hpre hu

/-- A stream of changes takes the event that a peer is connected.  The stream of the connected
peers does not get it, and the list that it yields when another peer is connected lacks the first
one, although no event is left. -/
theorem misses_taken :
  (machine.run PeersState.init
      [.connect, .obtain .peerChanges, .obtain .connectedPeers, .lock 0, .lock 1,
        .event (⟨1⟩, .connected), .take 0, .lock 0, .event (⟨2⟩, .connected), .take 1,
        .lock 1]).map (fun s => (s.taken, s.events.length, (s.streams 1).list,
          lastValue s.events ⟨1⟩)) =
    some (2, 2, some [⟨2⟩], some .connected)
  := rfl

/-- A stream that is alone sees everything: another one is dropped while it holds the lock, before
any event is taken. -/
theorem complete_alone :
  ∃ s, machine.run PeersState.init
      [.connect, .obtain .peerChanges, .obtain .connectedPeers, .lock 0, .lock 1, .drop 0,
        .event (⟨1⟩, .connected), .event (⟨2⟩, .connected), .take 1, .lock 1, .take 1] = some s ∧
    s.Complete
  := by
  refine ⟨_, rfl, ?_⟩
  refine (@complete_iff_alone
    [.connect, .obtain .peerChanges, .obtain .connectedPeers, .lock 0, .lock 1, .drop 0,
      .event (⟨1⟩, .connected), .event (⟨2⟩, .connected), .take 1, .lock 1, .take 1] _
    rfl).mpr ?_ _ _ List.prefix_rfl rfl
  have hheld : ∀ t : PeersState, (t.streams 0).task = .dropped →
      (∀ i, (t.streams (i + 2)).task = .dropped) → ∀ i, t.Held i → i = 1 := by
    intro t h0 h2 i hi
    rcases i with _ | _ | i
    · cases hi h0
    · rfl
    · cases hi (h2 i)
  refine ⟨trivial, ?_⟩
  rintro t ⟨⟩
  refine ⟨rfl, ?_⟩
  rintro t ⟨⟩
  refine ⟨rfl, ?_⟩
  rintro t ⟨⟩
  change machine.Along Alone _ ([.lock 0, .lock 1, .drop 0, .event (⟨1⟩, .connected),
    .event (⟨2⟩, .connected)] ++ [.take 1, .lock 1, .take 1])
  apply machine.along_append.mpr
  refine ⟨machine.along_of_forall (by simp [Alone]) _, ?_⟩
  rintro t ⟨⟩
  refine ⟨hheld _ rfl fun _ => rfl, ?_⟩
  rintro t ⟨⟩
  refine ⟨trivial, ?_⟩
  rintro t ⟨⟩
  exact ⟨hheld _ rfl fun _ => rfl, fun _ _ => trivial⟩

end PeersState

end WebRtc

end Cyclers
