import Cyclers.Async.Deal
import Cyclers.WebRtc.Peers

/-!
# How the peer events are dealt out

The streams of peers share the socket behind a fair mutex.  Whatever streams there are, each event
that has been taken out of the socket is reported by one of them, and each stream reports its events
in the order in which they came.  No event is left behind as long as there is a stream that goes on,
and the streams end when the socket does.
-/

open Async Collection

namespace Cyclers

namespace WebRtc

namespace PeersState

/-- The streams that hold the lock or wait for it are those that have asked for it. -/
def Queues (s : PeersState) : Prop :=
  ∀ j, j ∈ s.socket.queue ↔ (s.streams j).task = .lock

/-- A stream leaves the lock. -/
theorem Queues.leave {s t : PeersState} (h : Queues s) {j : ℕ} {stream : PeersStream}
    (ht : t.socket = s.socket.leave j) (hstreams : t.streams = s.streams)
    (htask : stream.task ≠ .lock) :
  Queues (t.setStream j stream)
  := by
  intro i
  change i ∈ t.socket.queue ↔ _
  rw [ht, Mutex.mem_leave, h i]
  by_cases hi : i = j
  · subst hi
    rw [setStream_self]
    exact iff_of_false (fun hne => hne.1 rfl) htask
  · rw [setStream_of_ne _ hi, hstreams]
    exact and_iff_right hi

/-- A stream asks for the lock. -/
theorem Queues.lock {s t : PeersState} (h : Queues s) {j : ℕ} {stream : PeersStream}
    (ht : t.socket = s.socket.lock j) (hstreams : t.streams = s.streams)
    (htask : stream.task = .lock) :
  Queues (t.setStream j stream)
  := by
  intro i
  change i ∈ t.socket.queue ↔ _
  rw [ht, Mutex.mem_lock, h i]
  by_cases hi : i = j
  · subst hi
    rw [setStream_self]
    exact iff_of_true (Or.inr rfl) htask
  · rw [setStream_of_ne _ hi, hstreams]
    exact or_iff_left hi

/-- The invariant of the streams.  Those that are held have been obtained, and they have asked for
the lock when they await it; each event that has been taken has been dealt out to one of them; and a
stream ends only when no event will come and none is left. -/
structure DealtInv (s : PeersState) : Prop where
  held : ∀ j, s.Held j → j < s.count
  queues : Queues s
  owners : ∃ owners : List ℕ, owners.length = s.taken ∧ (∀ j ∈ owners, j < s.count) ∧
    ∀ j, (s.streams j).reported = dealt owners s.events j
  ended : ∀ j, (s.streams j).task = .ended → s.ended = true ∧ s.events.length ≤ s.taken

theorem DealtInv.init :
  DealtInv init
  := by
  constructor
  · intro j hj
    cases hj rfl
  · intro j
    exact iff_of_false List.not_mem_nil PeersTask.noConfusion
  · use []
    refine ⟨rfl, fun _ hj => absurd hj List.not_mem_nil, ?_⟩
    intro j
    rw [dealt_nil]
    rfl
  · intro j hj
    cases hj

/-- A property of a stream that all streams have, when one stream changes and has it too. -/
theorem forall_setStream {s t : PeersState} (ht : t.streams = s.streams) {j : ℕ}
    {stream : PeersStream} {P : ℕ → PeersStream → Prop} (h : ∀ i, P i (s.streams i))
    (hj : P j stream) (i : ℕ) :
  P i ((t.setStream j stream).streams i)
  := by
  by_cases hi : i = j
  · subst hi
    rw [setStream_self]
    exact hj
  · rw [setStream_of_ne _ hi, ht]
    apply h i

/-- A step keeps the invariant of the streams. -/
theorem DealtInv.step {s t : PeersState} {e : PeersStep} (h : DealtInv s) (hinv : PeersInv s)
    (hs : machine.step s e = some t) :
  DealtInv t
  := by
  change s.step e = some t at hs
  obtain ⟨owners, hlen, howners, hdealt⟩ := h.owners
  have hlocks : ∀ {j}, s.Locks j → j < s.count := by
    intro j hj
    apply h.held j
    rw [Held, hj.1]
    exact PeersTask.noConfusion
  cases e with
  | connect =>
      rw [PeersState.step] at hs
      split at hs <;> cases hs
      exact ⟨h.held, h.queues, h.owners, h.ended⟩
  | event event =>
      rw [PeersState.step] at hs
      split at hs <;> cases hs
      obtain ⟨-, hended⟩ := ‹_ ∧ _›
      refine ⟨h.held, h.queues, ⟨owners, hlen, howners, ?_⟩, ?_⟩
      · intro j
        rw [dealt_append (hlen ▸ hinv.taken)]
        apply hdealt
      · intro j hj
        rw [(h.ended j hj).1] at hended
        cases hended
  | socketEnd =>
      rw [PeersState.step] at hs
      split at hs <;> cases hs
      exact ⟨h.held, h.queues, h.owners, fun j hj => ⟨rfl, (h.ended j hj).2⟩⟩
  | obtain method =>
      rw [PeersState.step] at hs
      cases hs
      have hfresh : (s.streams s.count).task = .dropped := by
        by_contra hne
        exact Nat.lt_irrefl _ (h.held s.count hne)
      refine ⟨?_, ?_, ⟨owners, hlen, fun j hj => Nat.lt_succ_of_lt (howners j hj), ?_⟩, ?_⟩
      · refine forall_setStream (P := fun j stream => stream.task ≠ .dropped → j < s.count + 1)
          rfl ?_ fun _ => Nat.lt_succ_self _
        intro j hj
        apply Nat.lt_succ_of_lt (h.held j hj)
      · intro j
        change j ∈ s.socket.queue ↔ _
        rw [h.queues j]
        by_cases hj : j = s.count
        · subst hj
          rw [setStream_self, hfresh]
          exact iff_of_false PeersTask.noConfusion PeersTask.noConfusion
        · rw [setStream_of_ne _ hj]
      · refine forall_setStream (P := fun j stream => stream.reported = dealt owners s.events j)
          rfl hdealt ?_
        rw [dealt_of_notMem fun hmem => Nat.lt_irrefl _ (howners _ hmem)]
        rfl
      · exact forall_setStream (P := fun _ stream => stream.task = .ended → _) rfl h.ended
          (by simp [PeersStream.new])
  | drop j =>
      rw [PeersState.step] at hs
      split at hs <;> cases hs
      refine ⟨?_, h.queues.leave rfl rfl (by simp), ⟨owners, hlen, howners, ?_⟩, ?_⟩
      · exact forall_setStream (P := fun i stream => stream.task ≠ .dropped → i < s.count) rfl
          h.held fun _ => ‹_›
      · exact forall_setStream (P := fun i stream => stream.reported = dealt owners s.events i)
          rfl hdealt (hdealt j)
      · exact forall_setStream (P := fun _ stream => stream.task = .ended → _) rfl h.ended (by simp)
  | lock j =>
      rw [PeersState.step] at hs
      split at hs <;> cases hs
      obtain ⟨-, htask⟩ := ‹_ ∧ _›
      refine ⟨?_, h.queues.lock rfl rfl rfl, ⟨owners, hlen, howners, ?_⟩, ?_⟩
      · refine forall_setStream (P := fun i stream => stream.task ≠ .dropped → i < s.count) rfl
          h.held fun _ => h.held j ?_
        rw [Held, htask]
        exact PeersTask.noConfusion
      · exact forall_setStream (P := fun i stream => stream.reported = dealt owners s.events i)
          rfl hdealt (hdealt j)
      · exact forall_setStream (P := fun _ stream => stream.task = .ended → _) rfl h.ended (by simp)
  | take j =>
      rw [PeersState.step] at hs
      split at hs
      · rename_i hj
        split at hs <;> cases hs
        rename_i event hget
        have htask : ((s.streams j).take event).task = .socket := by
          rw [PeersStream.take]
          split <;> rfl
        refine ⟨?_, ?_, ⟨owners ++ [j], ?_, ?_, ?_⟩, ?_⟩
        · exact forall_setStream (P := fun i stream => stream.task ≠ .dropped → i < s.count) rfl
            h.held fun _ => hlocks hj
        · refine h.queues.leave rfl rfl ?_
          rw [htask]
          exact PeersTask.noConfusion
        · rw [List.length_append, hlen]
          rfl
        · intro i hi
          rcases List.mem_append.mp hi with hi | hi
          · apply howners i hi
          · rw [List.mem_singleton.mp hi]
            apply hlocks hj
        · intro i
          change _ = dealt (owners ++ [j]) s.events i
          rw [dealt_concat (hlen.symm ▸ hget), ← hdealt i]
          by_cases hi : i = j
          · subst hi
            rw [setStream_self, PeersStream.take_reported, if_pos rfl]
          · rw [setStream_of_ne _ hi, if_neg fun hji => hi hji.symm, List.append_nil]
        · refine forall_setStream (P := fun _ stream => stream.task = .ended → _) rfl ?_ ?_
          · intro i hi
            exact ⟨(h.ended i hi).1, Nat.le_succ_of_le (h.ended i hi).2⟩
          · rw [htask]
            exact PeersTask.noConfusion
      · cases hs
  | takeEnd j =>
      rw [PeersState.step] at hs
      split at hs <;> cases hs
      obtain ⟨hj, hended, hle⟩ := ‹_ ∧ _›
      refine ⟨?_, h.queues.leave rfl rfl (by simp), ⟨owners, hlen, howners, ?_⟩, ?_⟩
      · exact forall_setStream (P := fun i stream => stream.task ≠ .dropped → i < s.count) rfl
          h.held fun _ => hlocks hj
      · exact forall_setStream (P := fun i stream => stream.reported = dealt owners s.events i)
          rfl hdealt (hdealt j)
      · exact forall_setStream (P := fun _ stream => stream.task = .ended → _) rfl h.ended
          fun _ => ⟨hended, hle⟩

theorem DealtInv.of_run {tr : List PeersStep} {s : PeersState}
    (h : machine.run PeersState.init tr = some s) :
  DealtInv s
  := by
  refine (machine.run_invariant (P := fun s => PeersInv s ∧ DealtInv s)
    ⟨PeersInv.init, DealtInv.init⟩ ?_ h).2
  rintro s e t ⟨hpeers, hs⟩ ht
  exact ⟨hpeers.step (effect_of_step ht), hs.step hpeers ht⟩

/-! ### What is left -/

/-- The steps that need nothing but the streams, which are polled when they are woken. -/
def internal : PeersStep → Prop
  | .lock _ => True
  | .take _ => True
  | .takeEnd _ => True
  | _ => False

/-- In a quiescent state after the socket has been given away, a stream that is held has ended, or
it waits for an event when none is left. -/
theorem DealtInv.of_quiescent {s : PeersState} (h : DealtInv s) (hc : s.connected = true)
    (hq : machine.Quiescent internal s) {j : ℕ} (hj : s.Held j) :
  (s.streams j).task = .ended ∨
    ((s.streams j).task = .lock ∧ s.ended = false ∧ s.events.length ≤ s.taken)
  := by
  cases htask : (s.streams j).task with
  | socket =>
      have hstuck : s.step (.lock j) = none := hq (.lock j) trivial
      rw [PeersState.step, if_pos ⟨hc, htask⟩] at hstuck
      cases hstuck
  | lock =>
      obtain ⟨i, hholder, hi⟩ := Mutex.exists_holder ((h.queues j).mpr htask)
      have hlocks : s.Locks i := ⟨(h.queues i).mp hi, hholder⟩
      have hle : s.events.length ≤ s.taken := by
        by_contra hlt
        have hstuck : s.step (.take i) = none := hq (.take i) trivial
        rw [PeersState.step, if_pos hlocks,
          List.getElem?_eq_getElem (Nat.lt_of_not_le hlt)] at hstuck
        cases hstuck
      refine Or.inr ⟨rfl, ?_, hle⟩
      cases hended : s.ended with
      | false => rfl
      | true =>
          have hstuck : s.step (.takeEnd i) = none := hq (.takeEnd i) trivial
          rw [PeersState.step, if_pos ⟨hlocks, hended, hle⟩] at hstuck
          cases hstuck
  | ended => exact Or.inl rfl
  | dropped => cases hj htask

/-- The events of the socket are dealt out to the streams of peers.  Whatever streams of either
method are obtained and dropped, and in whatever order they and the socket take their steps, each of
the events that have been taken is reported by one stream, and by no other one; each stream reports
its events in the order in which they came, and a list of the connected peers is that of the events
of its stream.  In a quiescent state after the socket has been given away in which some stream is
held all events have been taken; the streams that are held have all ended if the socket has ended,
and none of them has if it has not. -/
theorem events_dealt {tr : List PeersStep} {s : PeersState}
    (h : machine.run PeersState.init tr = some s) :
  (∃ owners : List ℕ, owners.length = s.taken ∧ (∀ j ∈ owners, j < s.count) ∧
      ∀ j, (s.streams j).reported = dealt owners s.events j ∧
        ((s.streams j).method = .connectedPeers → ∀ list, (s.streams j).list = some list →
          list.Nodup ∧ ∀ peerId, peerId ∈ list ↔
            lastValue (dealt owners s.events j) peerId = some .connected)) ∧
    s.taken ≤ s.events.length ∧
    (s.connected = true → machine.Quiescent internal s → ∀ j, s.Held j →
      s.taken = s.events.length ∧ ((s.streams j).task = .ended ↔ s.ended = true))
  := by
  have hinv := DealtInv.of_run h
  have hpeers := PeersInv.of_run h
  have htaken := hpeers.taken
  obtain ⟨owners, hlen, howners, hdealt⟩ := hinv.owners
  refine ⟨⟨owners, hlen, howners, ?_⟩, htaken, ?_⟩
  · intro j
    refine ⟨hdealt j, ?_⟩
    intro hm list hlist
    rw [← hdealt j]
    apply (hpeers.yields j).mem_list hm hlist
  · intro hc hq j hj
    rcases hinv.of_quiescent hc hq hj with htask | ⟨htask, hended, hle⟩
    · obtain ⟨hended, hle⟩ := hinv.ended j htask
      exact ⟨Nat.le_antisymm htaken hle, iff_of_true htask hended⟩
    · refine ⟨Nat.le_antisymm htaken hle, iff_of_false ?_ ?_⟩
      · rw [htask]
        exact PeersTask.noConfusion
      · rw [hended]
        exact Bool.false_ne_true

/-- Two streams take turns. -/
theorem events_dealt_two :
  ∃ s, machine.run PeersState.init
      [.connect, .obtain .peerChanges, .obtain .connectedPeers, .lock 0, .lock 1,
        .event (⟨1⟩, .connected), .take 0, .lock 0, .event (⟨2⟩, .connected), .take 1,
        .lock 1] = some s ∧
    (∃ owners : List ℕ, owners.length = s.taken ∧
      ∀ j, (s.streams j).reported = dealt owners s.events j) ∧
    s.taken = 2 ∧ (s.streams 0).reported = [(⟨1⟩, .connected)] ∧
    (s.streams 1).reported = [(⟨2⟩, .connected)]
  := by
  refine ⟨_, rfl, ?_, rfl, rfl, rfl⟩
  exact (@events_dealt [.connect, .obtain .peerChanges, .obtain .connectedPeers, .lock 0, .lock 1,
    .event (⟨1⟩, .connected), .take 0, .lock 0, .event (⟨2⟩, .connected), .take 1,
    .lock 1] _ rfl).1.imp fun _ h => ⟨h.1, fun j => (h.2.2 j).1⟩

end PeersState

end WebRtc

end Cyclers
