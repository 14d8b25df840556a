import Cyclers.Async.Link
import Cyclers.WebRtc.Send

/-!
# Rooms

The peers that connect to one room are connected pairwise by the data channels of their sockets.  A
room is made of one driver and source for each peer, and of a link from each peer to each other one.
The loop of messages of a peer takes what the driver has forwarded, and puts it on the link to the
peer it is sent to; what comes over a link goes to the receiver of the peer at its end.
-/

open Async

namespace Cyclers

namespace WebRtc

/-- The packets of the messages that bear the id of a peer. -/
def packets (p : PeerId) (messages : List Message) : List Packet :=
  (messages.filter fun message => message.1 = p).map Prod.snd

@[simp]
theorem packets_append (p : PeerId) (messages messages' : List Message) :
  packets p (messages ++ messages') = packets p messages ++ packets p messages'
  := by
  rw [packets, List.filter_append, List.map_append, packets, packets]

theorem packets_singleton (p : PeerId) (message : Message) :
  packets p [message] = if message.1 = p then [message.2] else []
  := by
  by_cases h : message.1 = p <;> simp [packets, h]

theorem packets_isPrefix (p : PeerId) {messages messages' : List Message}
    (h : messages <+: messages') :
  packets p messages <+: packets p messages'
  := by
  obtain ⟨rest, rfl⟩ := h
  rw [packets_append]
  apply List.prefix_append

namespace WebRtcState

/-- The messages that have come in, in order: those that the streams have received, and then those
that no one has received. -/
def inbox (s : WebRtcState) : List Message :=
  s.received.map Prod.snd ++ s.incoming

/-- The message that an event brings in. -/
def arriving : WebRtcEvent → List Message
  | .message message => [message]
  | _ => []

/-- A message that comes in goes to the end of those that have; a stream receives the first of those
that no one has received; nothing else changes what has come in. -/
theorem inbox_step {s t : WebRtcState} {e : WebRtcEvent} (h : Step s e t) :
  t.inbox = s.inbox ++ arriving e
  := by
  cases h with
  | message message hl hr =>
      rw [inbox, inbox, List.append_assoc]
      rfl
  | receive j message incoming ht hi hh =>
      change (s.received ++ [(j, message)]).map Prod.snd ++ incoming = s.inbox ++ []
      rw [inbox, hi, List.map_append, List.append_assoc, List.append_nil]
      rfl
  | withoutSending e c hp hd =>
      cases e <;> first | exact (List.append_nil _).symm | cases hp
  | _ => exact (List.append_nil _).symm

/-- What has been forwarded stays. -/
theorem forwarded_step {s t : WebRtcState} {e : WebRtcEvent} (h : Step s e t) :
  s.forwarded <+: t.forwarded
  := by
  cases h with
  | forward next message hz hc hl => exact List.prefix_append _ _
  | _ => exact List.prefix_rfl

/-- The invariant of a driver that takes part in a room: that of its handlers and of the lock; the
receiver is closed only when the token is cancelled, and the loop of messages has ended when the run
has. -/
structure PeerInv (s : WebRtcState) : Prop where
  handlers : HandlersInv s
  lock : LockInv s
  closed : s.receiverClosed = true → s.cancelled = true
  outcome : s.outcome ≠ none → ∃ connected, s.messageLoop = .ended connected

theorem PeerInv.init :
  PeerInv init
  := by
  refine ⟨HandlersInv.init, LockInv.init, nofun, ?_⟩
  intro h
  cases h rfl

theorem PeerInv.step {s t : WebRtcState} {e : WebRtcEvent} (h : PeerInv s)
    (ht : machine.step s e = some t) :
  PeerInv t
  := by
  obtain ⟨hp, ho, hs⟩ := step_of_machine ht
  have hrun : ∀ {P : Prop}, e.ofRun = true → s.outcome ≠ none → P := by
    intro P he hn
    cases hn (ho he)
  refine ⟨h.handlers.step ht, ?_, ?_, ?_⟩
  · exact h.lock.step (h.handlers.oneshots.fresh _ (Nat.le_refl _)) ho hs
  · cases hs with
    | disconnect next hz => exact fun _ => rfl
    | close hd hh => exact fun _ => h.handlers.disconnect.disconnected (Or.inr hd)
    | _ => exact h.closed
  · cases hs with
    | loopFail err hl => exact fun _ => ⟨_, rfl⟩
    | forwardFail next message hz hc => exact fun _ => ⟨_, rfl⟩
    | loopEnd hl => exact fun _ => ⟨_, rfl⟩
    | connectEnd i next hi hl hle he => exact fun _ => ⟨_, rfl⟩
    | finish connected hsend hd hl => exact fun _ => ⟨connected, hl⟩
    | takeConnect i next roomUrl hi hl hget => exact fun hn => hrun rfl hn
    | skipConnect next command hl hget hn => exact fun hn => hrun rfl hn
    | giveAway c hl hne => exact fun hn => hrun rfl hn
    | _ => exact h.outcome

/-- A peer takes part in its room: its loop of messages runs, and it has not disconnected. -/
def Live (s : WebRtcState) : Prop :=
  s.messageLoop = .running ∧ s.cancelled = false

/-- A peer that takes part in its room has not failed. -/
theorem PeerInv.of_live {s : WebRtcState} (h : PeerInv s) (hl : s.Live) :
  s.panicked = none ∧ s.outcome = none ∧ s.receiverClosed = false
  := by
  refine ⟨?_, ?_, ?_⟩
  · apply h.handlers.oneshots.not_panicked
    rw [hl.1]
    rfl
  · by_contra hn
    obtain ⟨connected, hended⟩ := h.outcome hn
    rw [hl.1] at hended
    cases hended
  · rw [Bool.eq_false_iff]
    intro hc
    have hcancel := h.closed hc
    rw [hl.2] at hcancel
    cases hcancel

/-- A peer that takes part in its room, and has nothing left to do, has forwarded all that is
sent. -/
theorem PeerInv.forwarded_eq {s : WebRtcState} (h : PeerInv s) (hl : s.Live)
    (hq : machine.Quiescent internalRun s) :
  s.forwarded = sends s.sink
  := by
  obtain ⟨hp, ho, -⟩ := h.of_live hl
  cases hz : s.send with
  | zip next sender message =>
      have hconnected : s.messageLoop.connected = true := congrArg MessageLoop.connected hl.1
      obtain ⟨rfl, hle⟩ := h.handlers.not_pending hp ho hq hconnected hz
      obtain ⟨-, hf⟩ := h.handlers.send.zip next sender none hz
      rw [List.take_of_length_le hle] at hf
      exact (List.append_nil _).symm.trans hf
  | ended =>
      rcases h.handlers.send.ended hz with hc | ⟨err, herr⟩ | ⟨-, hf⟩
      · rw [hl.2] at hc
        cases hc
      · rw [ho] at herr
        cases herr
      · exact hf

/-- Whoever holds the lock of the receiver takes the messages that come in: when a stream of
messages goes on, and nothing is left to do, all of them have been received. -/
theorem PeerInv.incoming_eq_nil {s : WebRtcState} (h : PeerInv s) (hl : s.Live)
    (hq : machine.Quiescent internal s) {k : ℕ}
    (hk : s.streams k = .receiver ∨ s.streams k = .lock) :
  s.incoming = []
  := by
  obtain ⟨hp, ho, -⟩ := h.of_live hl
  have hlock : s.streams k = .lock := by
    refine hk.resolve_left ?_
    intro ht
    have hconnected : s.messageLoop.connected = true := congrArg MessageLoop.connected hl.1
    have hstuck := act_of_quiescent_stream hq hp (.poll k) trivial rfl
    rw [act, ht] at hstuck
    simp only [recv_of_sent (h.handlers.oneshots.given.sent hconnected _)] at hstuck
    cases hstuck
  obtain ⟨p, hholder, hmem⟩ := Mutex.exists_holder ((h.lock.queues (.stream k)).mpr hlock)
  have hqueued := (h.lock.queues p).mp hmem
  cases p with
  | source => cases hqueued
  | sendHandler => cases hqueued
  | disconnectHandler =>
      have hcancel := h.handlers.disconnect.disconnected (Or.inr hqueued)
      rw [hl.2] at hcancel
      cases hcancel
  | stream j =>
      have ht : s.streams j = .lock := hqueued
      cases hi : s.incoming with
      | nil => rfl
      | cons message incoming =>
          have hstuck := act_of_quiescent_stream hq hp (.receive j) trivial rfl
          rw [act, ht, hi] at hstuck
          simp only [if_pos hholder] at hstuck
          cases hstuck

end WebRtcState

/-- A room: the driver and the source of each peer; the number of the messages it has forwarded that
its loop of messages has put on a link; and the link from each peer to each other one. -/
structure Room where
  peers : PeerId → WebRtcState
  transmitted : PeerId → ℕ
  links : PeerId → PeerId → Link Packet

/-- What happens in a room: a peer goes on; the data channel from a peer to another one opens, or
closes; the loop of messages of a peer puts the next message on its link; a message arrives that a
peer has sent to another one. -/
inductive RoomEvent where
  | peer : PeerId → WebRtcEvent → RoomEvent
  | connect : PeerId → PeerId → RoomEvent
  | cut : PeerId → PeerId → RoomEvent
  | transmit : PeerId → RoomEvent
  | arrive : PeerId → PeerId → RoomEvent
  deriving DecidableEq

namespace Room

/-- No peer has done anything. -/
def init : Room where
  peers _ := WebRtcState.init
  transmitted _ := 0
  links _ _ := Link.down

/-- A peer goes on to `s`. -/
def setPeer (r : Room) (i : PeerId) (s : WebRtcState) : Room :=
  { r with peers := Function.update r.peers i s }

/-- Change the link from the peer `i` to the peer `j`. -/
def setLink (r : Room) (i j : PeerId) (l : Link Packet) : Room :=
  { r with links := Function.update r.links i (Function.update (r.links i) j l) }

/-- The next message that the loop of messages of a peer is to put on a link. -/
def outgoing (r : Room) (i : PeerId) : Option Message :=
  (r.peers i).forwarded[r.transmitted i]?

@[simp]
theorem setPeer_self (r : Room) (i : PeerId) (s : WebRtcState) :
  (r.setPeer i s).peers i = s
  := Function.update_self ..

@[simp]
theorem setPeer_of_ne (r : Room) {i j : PeerId} (h : j ≠ i) (s : WebRtcState) :
  (r.setPeer i s).peers j = r.peers j
  := Function.update_of_ne h ..

@[simp]
theorem setLink_self (r : Room) (i j : PeerId) (l : Link Packet) :
  (r.setLink i j l).links i j = l
  := by simp [setLink]

theorem setLink_of_ne (r : Room) {i j i' j' : PeerId} (h : ¬ (i' = i ∧ j' = j)) (l : Link Packet) :
  (r.setLink i' j' l).links i j = r.links i j
  := by
  change Function.update r.links i' (Function.update (r.links i') j' l) i j = _
  by_cases hi : i = i'
  · subst hi
    rw [Function.update_self, Function.update_of_ne]
    rintro rfl
    exact h ⟨rfl, rfl⟩
  · rw [Function.update_of_ne hi]

/-- One event, when it may happen.  What comes in at a peer comes from a link only. -/
def step (r : Room) : RoomEvent → Option Room
  | .peer i e =>
      match e with
      | .message _ => none
      | e => ((r.peers i).step e).map (r.setPeer i)
  | .connect i j =>
      if i ≠ j ∧ (r.peers i).messageLoop = .running ∧ (r.peers j).messageLoop = .running then
        some (r.setLink i j (r.links i j).connect)
      else none
  | .cut i j => some (r.setLink i j Link.down)
  | .transmit i =>
      if (r.peers i).messageLoop = .running then
        match r.outgoing i with
        | some (j, packet) =>
            some ({ r with transmitted := Function.update r.transmitted i (r.transmitted i + 1) }.setLink
              i j ((r.links i j).put [packet]))
        | none => none
      else none
  | .arrive i j =>
      match ((r.links i j).deliver 1).1 with
      | packet :: _ =>
          ((r.peers j).step (.message (i, packet))).map fun s =>
            (r.setPeer j s).setLink i j ((r.links i j).deliver 1).2
      | [] => none

/-- The room as a machine. -/
def machine : Machine Room RoomEvent where
  step := step

/-- The events that need nothing but the peers `i` and `j`, and the link from `i` to `j`. -/
def internal (i j : PeerId) : RoomEvent → Prop
  | .peer k e => (k = i ∨ k = j) ∧ WebRtcState.internal e
  | .connect _ _ => False
  | .cut _ _ => False
  | .transmit k => k = i
  | .arrive k l => k = i ∧ l = j

/-- The packets of the commands to send that the peer `i` has been given for the peer `j`. -/
def sentTo (r : Room) (i j : PeerId) : List Packet :=
  packets j (sends (r.peers i).sink)

/-- The packets from the peer `i` that the streams of messages of the peer `j` have received, in the
order in which they did. -/
def receivedFrom (r : Room) (i j : PeerId) : List Packet :=
  packets i ((r.peers j).received.map Prod.snd)

/-! ### The events -/

/-- The events, one case for each way one can happen. -/
inductive Step (r : Room) : RoomEvent → Room → Prop where
  | peer (i : PeerId) (e : WebRtcEvent) (s : WebRtcState) :
      WebRtcState.machine.step (r.peers i) e = some s → WebRtcState.arriving e = [] →
      Step r (.peer i e) (r.setPeer i s)
  | connect (i j : PeerId) : Step r (.connect i j) (r.setLink i j (r.links i j).connect)
  | cut (i j : PeerId) : Step r (.cut i j) (r.setLink i j Link.down)
  | transmit (i j : PeerId) (packet : Packet) : r.outgoing i = some (j, packet) →
      Step r (.transmit i)
        ({ r with transmitted := Function.update r.transmitted i (r.transmitted i + 1) }.setLink
          i j ((r.links i j).put [packet]))
  | arrive (i j : PeerId) (packet : Packet) (s : WebRtcState) :
      ((r.links i j).deliver 1).1 = [packet] →
      WebRtcState.machine.step (r.peers j) (.message (i, packet)) = some s →
      Step r (.arrive i j) ((r.setPeer j s).setLink i j ((r.links i j).deliver 1).2)

/-- What happens is one of the steps of `Step`. -/
theorem step_of_machine {r t : Room} {e : RoomEvent} (h : machine.step r e = some t) :
  Step r e t
  := by
  change r.step e = some t at h
  cases e with
  | peer i e =>
      have hs : ∀ e, WebRtcState.arriving e = [] → ((r.peers i).step e).map (r.setPeer i) = some t →
          Step r (.peer i e) t := by
        intro e he hmap
        obtain ⟨s, hs, rfl⟩ := Option.map_eq_some_iff.mp hmap
        apply Step.peer i e s hs he
      cases e <;> first | cases h | exact hs _ rfl h
  | connect i j =>
      rw [step] at h
      split at h <;> cases h
      apply Step.connect
  | cut i j =>
      cases h
      apply Step.cut
  | transmit i =>
      rw [step] at h
      split at h
      · split at h <;> cases h
        apply Step.transmit i _ _ ‹_›
      · cases h
  | arrive i j =>
      rw [step] at h
      split at h
      · rename_i packet rest hd
        obtain ⟨s, hs, rfl⟩ := Option.map_eq_some_iff.mp h
        have hone : ((r.links i j).deliver 1).1 = [packet] := by
          have hlen : ((r.links i j).deliver 1).1.length ≤ 1 := List.length_take_le _ _
          rw [hd] at hlen ⊢
          rw [List.length_cons, Nat.succ_le_succ_iff] at hlen
          rw [List.length_eq_zero_iff.mp (Nat.le_zero.mp hlen)]
        apply Step.arrive i j packet s hone hs
      · cases h

/-- The invariant of a room: that of each peer, which has put no more on its links than it has
forwarded. -/
structure RoomInv (r : Room) : Prop where
  peers : ∀ i, (r.peers i).PeerInv
  transmitted : ∀ i, r.transmitted i ≤ (r.peers i).forwarded.length

theorem RoomInv.init :
  RoomInv init
  := ⟨fun _ => WebRtcState.PeerInv.init, fun _ => Nat.le_refl _⟩

/-- One peer goes on. -/
theorem RoomInv.setPeer {r : Room} (h : RoomInv r) {i : PeerId} {e : WebRtcEvent} {s : WebRtcState}
    (hs : WebRtcState.machine.step (r.peers i) e = some s) :
  RoomInv (r.setPeer i s)
  := by
  constructor
  · intro j
    by_cases hj : j = i
    · subst hj
      rw [setPeer_self]
      apply (h.peers j).step hs
    · rw [setPeer_of_ne r hj]
      apply h.peers
  · intro j
    by_cases hj : j = i
    · subst hj
      rw [setPeer_self]
      apply (h.transmitted j).trans
      apply (WebRtcState.forwarded_step (WebRtcState.step_of_machine hs).2.2).length_le
    · rw [setPeer_of_ne r hj]
      apply h.transmitted

theorem RoomInv.step {r t : Room} {e : RoomEvent} (h : RoomInv r) (hs : Step r e t) :
  RoomInv t
  := by
  cases hs with
  | peer i e s hs he => exact h.setPeer hs
  | connect i j => exact ⟨h.peers, h.transmitted⟩
  | cut i j => exact ⟨h.peers, h.transmitted⟩
  | transmit i j packet hout =>
      refine ⟨h.peers, ?_⟩
      intro k
      change Function.update r.transmitted i (r.transmitted i + 1) k ≤ _
      by_cases hk : k = i
      · subst hk
        rw [Function.update_self]
        exact (List.getElem?_eq_some_iff.mp hout).1
      · rw [Function.update_of_ne hk]
        apply h.transmitted
  | arrive i j packet s hd hs =>
      have hr := h.setPeer hs
      exact ⟨hr.peers, hr.transmitted⟩

theorem RoomInv.of_run {tr : List RoomEvent} {r : Room}
    (h : machine.run Room.init tr = some r) :
  RoomInv r
  := by
  apply machine.run_invariant (P := RoomInv) RoomInv.init _ h
  intro r e t hr ht
  apply hr.step (step_of_machine ht)

/-! ### Two peers -/

/-- The transfer from the peer `i` to the peer `j`: what has been put on the link, and what has come
in. -/
def transfer (r : Room) (i j : PeerId) : Transfer Packet where
  link := r.links i j
  sent := packets j ((r.peers i).forwarded.take (r.transmitted i))
  got := packets i (r.peers j).inbox

/-- What an event of the room is to the link from the peer `i` to the peer `j`, if anything. -/
def sees (r : Room) (i j : PeerId) : RoomEvent → Option (LinkEvent Packet)
  | .peer _ _ => none
  | .connect i' j' => if i' = i ∧ j' = j then some .connect else none
  | .cut i' j' => if i' = i ∧ j' = j then some .cut else none
  | .transmit i' =>
      if i' = i then (r.outgoing i).bind fun message =>
        if message.1 = j then some (.put [message.2]) else none
      else none
  | .arrive i' j' => if i' = i ∧ j' = j then some (.deliver 1) else none

/-- A peer that goes on changes no transfer by that, except for what comes in. -/
theorem transfer_setPeer {r : Room} (h : RoomInv r) {k : PeerId} {e : WebRtcEvent}
    {s : WebRtcState} (hs : WebRtcState.machine.step (r.peers k) e = some s) (i j : PeerId) :
  (r.setPeer k s).transfer i j = { r.transfer i j with
    got := (r.transfer i j).got ++ if k = j then packets i (WebRtcState.arriving e) else [] }
  := by
  have hstep := (WebRtcState.step_of_machine hs).2.2
  have hsent : packets j (((r.setPeer k s).peers i).forwarded.take (r.transmitted i)) =
      (r.transfer i j).sent := by
    by_cases hi : i = k
    · subst hi
      rw [setPeer_self]
      obtain ⟨rest, hrest⟩ := WebRtcState.forwarded_step hstep
      rw [← hrest, List.take_append_of_le_length (h.transmitted i)]
      rfl
    · rw [setPeer_of_ne r hi]
      rfl
  have hgot : packets i ((r.setPeer k s).peers j).inbox =
      (r.transfer i j).got ++ if k = j then packets i (WebRtcState.arriving e) else [] := by
    by_cases hj : k = j
    · subst hj
      rw [setPeer_self, WebRtcState.inbox_step hstep, packets_append, if_pos rfl]
      rfl
    · rw [setPeer_of_ne r (Ne.symm hj), if_neg hj, List.append_nil]
      rfl
  rw [transfer, hgot]
  change Transfer.mk _ (packets j (((r.setPeer k s).peers i).forwarded.take (r.transmitted i))) _ = _
  rw [hsent]
  rfl

/-- The loop of messages of a peer puts one more message on a link. -/
theorem sent_transmit {r : Room} {k l : PeerId} {packet : Packet}
    (hout : r.outgoing k = some (l, packet)) (i j : PeerId) :
  packets j ((r.peers i).forwarded.take
      (Function.update r.transmitted k (r.transmitted k + 1) i)) =
    (r.transfer i j).sent ++ if k = i ∧ l = j then [packet] else []
  := by
  by_cases hi : i = k
  · subst hi
    rw [Function.update_self, List.take_add_one]
    rw [outgoing] at hout
    rw [hout, packets_append, Option.toList_some, packets_singleton]
    simp only [true_and]
    rfl
  · rw [Function.update_of_ne hi, if_neg fun h => hi h.1.symm, List.append_nil]
    rfl

/-- What happens in a room is, for two of its peers, what happens to their link. -/
theorem transfer_step {r t : Room} {e : RoomEvent} (h : RoomInv r) (hs : Step r e t)
    (i j : PeerId) :
  t.transfer i j = (r.sees i j e).elim (r.transfer i j) (r.transfer i j).act
  := by
  cases hs with
  | peer k e s hs he =>
      rw [transfer_setPeer h hs, he]
      change ({ r.transfer i j with got := (r.transfer i j).got ++ if k = j then [] else [] } :
        Transfer Packet) = r.transfer i j
      rw [ite_self, List.append_nil]
  | connect i' j' =>
      rw [sees]
      by_cases hij : i' = i ∧ j' = j
      · obtain ⟨rfl, rfl⟩ := hij
        rw [if_pos ⟨rfl, rfl⟩, transfer, setLink_self]
        rfl
      · rw [if_neg hij, transfer, setLink_of_ne r hij]
        rfl
  | cut i' j' =>
      rw [sees]
      by_cases hij : i' = i ∧ j' = j
      · obtain ⟨rfl, rfl⟩ := hij
        rw [if_pos ⟨rfl, rfl⟩, transfer, setLink_self]
        rfl
      · rw [if_neg hij, transfer, setLink_of_ne r hij]
        rfl
  | transmit i' j' packet hout =>
      have hsent := sent_transmit hout i j
      rw [sees]
      by_cases hij : i' = i ∧ j' = j
      · obtain ⟨rfl, rfl⟩ := hij
        rw [if_pos ⟨rfl, rfl⟩] at hsent
        rw [if_pos rfl, hout, Option.bind_some, if_pos rfl, transfer, setLink_self]
        change Transfer.mk _ (packets j' ((r.peers i').forwarded.take
          (Function.update r.transmitted i' (r.transmitted i' + 1) i'))) _ = _
        rw [hsent]
        rfl
      · have hnone : (if i' = i then (r.outgoing i).bind fun message =>
            if message.1 = j then some (LinkEvent.put [message.2]) else none else none) = none := by
          by_cases hi : i' = i
          · subst hi
            rw [if_pos rfl, hout, Option.bind_some, if_neg fun hj => hij ⟨rfl, hj⟩]
          · rw [if_neg hi]
        rw [if_neg hij, List.append_nil] at hsent
        rw [hnone, transfer, setLink_of_ne _ hij]
        change Transfer.mk _ (packets j ((r.peers i).forwarded.take
          (Function.update r.transmitted i' (r.transmitted i' + 1) i))) _ = _
        rw [hsent]
        rfl
  | arrive i' j' packet s hd hs =>
      have hpeer := transfer_setPeer h hs i j
      rw [WebRtcState.arriving, packets_singleton] at hpeer
      have hlinks : (((r.setPeer j' s).setLink i' j' ((r.links i' j').deliver 1).2).transfer i j) =
          { (r.setPeer j' s).transfer i j with
            link := ((r.setPeer j' s).setLink i' j' ((r.links i' j').deliver 1).2).links i j } := rfl
      rw [sees, hlinks, hpeer]
      by_cases hij : i' = i ∧ j' = j
      · obtain ⟨rfl, rfl⟩ := hij
        simp only [and_self, if_true]
        rw [setLink_self, ← hd]
        rfl
      · rw [if_neg hij, setLink_of_ne _ hij]
        have hnil : (if j' = j then if i' = i then [packet] else [] else []) =
            ([] : List Packet) := by
          by_cases hj : j' = j
          · rw [if_pos hj, if_neg fun hi => hij ⟨hi, hj⟩]
          · rw [if_neg hj]
        rw [hnil, List.append_nil]
        rfl

/-- Nothing is lost by an event: a message is put on a link that is up, and nothing is on a link
when its data channel closes. -/
def Lossless (r : Room) : RoomEvent → Prop
  | .transmit i => (r.outgoing i).all fun message => (r.links i message.1).up
  | .cut i j => (r.links i j).inFlight = []
  | _ => True

/-- An event by which nothing is lost is safe for each link. -/
theorem safe_of_lossless {r : Room} {e : RoomEvent} (h : r.Lossless e) {i j : PeerId}
    {e' : LinkEvent Packet} (he : r.sees i j e = some e') :
  (r.transfer i j).Safe e'
  := by
  cases e with
  | peer k e => cases he
  | connect i' j' =>
      rw [sees] at he
      split at he <;> cases he
      trivial
  | cut i' j' =>
      rw [sees] at he
      split at he <;> cases he
      obtain ⟨rfl, rfl⟩ := ‹_ ∧ _›
      exact h
  | transmit i' =>
      rw [sees] at he
      split at he
      · rename_i hi
        subst hi
        obtain ⟨message, hout, hput⟩ := Option.bind_eq_some_iff.mp he
        split at hput <;> cases hput
        rename_i hj
        subst hj
        rw [Lossless, hout] at h
        exact Or.inl h
      · cases he
  | arrive i' j' =>
      rw [sees] at he
      split at he <;> cases he
      trivial

/-- What comes in at a peer is among what another one has put on its link, in order. -/
theorem carries_of_run {tr : List RoomEvent} {r : Room} (h : machine.run Room.init tr = some r)
    (i j : PeerId) :
  (r.transfer i j).Carries
  := by
  have hinv : RoomInv r ∧ (r.transfer i j).Carries := by
    apply machine.run_invariant (P := fun r => RoomInv r ∧ (r.transfer i j).Carries)
      ⟨RoomInv.init, Transfer.Carries.new⟩ _ h
    rintro r e t ⟨hr, hc⟩ ht
    have hs := step_of_machine ht
    refine ⟨hr.step hs, ?_⟩
    rw [transfer_step hr hs]
    cases r.sees i j e with
    | none => exact hc
    | some e' => apply hc.act
  exact hinv.2

/-- When nothing is lost, what comes in and what is on the link is all that has been put on it. -/
theorem keeps_of_run {tr : List RoomEvent} {r : Room} (h : machine.run Room.init tr = some r)
    (ha : machine.Along Lossless Room.init tr) (i j : PeerId) :
  (r.transfer i j).Keeps
  := by
  have hinv : RoomInv r ∧ (r.transfer i j).Keeps := by
    apply machine.run_invariant_along (Q := fun r => RoomInv r ∧ (r.transfer i j).Keeps)
      ⟨RoomInv.init, Transfer.Keeps.new⟩ _ h ha
    rintro r e t ⟨hr, hk⟩ he ht
    have hs := step_of_machine ht
    refine ⟨hr.step hs, ?_⟩
    rw [transfer_step hr hs]
    cases hsees : r.sees i j e with
    | none => exact hk
    | some e' => apply hk.act (safe_of_lossless he hsees)
  exact hinv.2

/-! ### Quiescent rooms -/

/-- When nothing is left to do for two peers, each of them is in a quiescent state. -/
theorem quiescent_peer {r : Room} {i j : PeerId} (hq : machine.Quiescent (internal i j) r)
    {k : PeerId} (hk : k = i ∨ k = j) :
  WebRtcState.machine.Quiescent WebRtcState.internal (r.peers k)
  := by
  intro e he
  have hstuck := hq (.peer k e) ⟨hk, he⟩
  change r.step (.peer k e) = none at hstuck
  cases e <;> first | exact Option.map_eq_none_iff.mp hstuck | cases he

/-- Nothing is left to do for two peers when they are in quiescent states, nothing is on the link,
and the loop of messages of the first one has nothing to put on a link. -/
theorem quiescent_of {r : Room} {i j : PeerId}
    (hi : WebRtcState.machine.Quiescent WebRtcState.internal (r.peers i))
    (hj : WebRtcState.machine.Quiescent WebRtcState.internal (r.peers j))
    (hout : r.outgoing i = none) (hlink : (r.links i j).inFlight = []) :
  machine.Quiescent (internal i j) r
  := by
  intro e he
  change r.step e = none
  cases e with
  | peer k e =>
      obtain ⟨hk, he⟩ := he
      have hnone : ((r.peers k).step e).map (r.setPeer k) = none := by
        apply Option.map_eq_none_iff.mpr
        rcases hk with rfl | rfl
        · apply hi e he
        · apply hj e he
      cases e <;> first | exact hnone | rfl
  | connect k l => cases he
  | cut k l => cases he
  | transmit k =>
      obtain rfl : k = i := he
      rw [step, hout]
      split <;> rfl
  | arrive k l =>
      obtain ⟨rfl, rfl⟩ := he
      rw [step, Link.deliver, hlink]
      rfl

/-- A peer that takes part in the room, and has nothing left to do, has put on its links all that it
has forwarded. -/
theorem transmitted_eq {r : Room} {i j : PeerId} (h : RoomInv r)
    (hq : machine.Quiescent (internal i j) r) (hi : (r.peers i).Live) :
  r.transmitted i = (r.peers i).forwarded.length
  := by
  apply Nat.le_antisymm (h.transmitted i)
  apply List.getElem?_eq_none_iff.mp
  have hstuck := hq (.transmit i) rfl
  change r.step (.transmit i) = none at hstuck
  rw [step, if_pos hi.1] at hstuck
  split at hstuck
  · cases hstuck
  · assumption

/-- When nothing is left to do, nothing is on the link to a peer that takes part in the room. -/
theorem inFlight_eq_nil {r : Room} {i j : PeerId} (h : RoomInv r)
    (hq : machine.Quiescent (internal i j) r) (hj : (r.peers j).Live) :
  (r.links i j).inFlight = []
  := by
  obtain ⟨hp, -, hclosed⟩ := (h.peers j).of_live hj
  cases hl : (r.links i j).inFlight with
  | nil => rfl
  | cons packet rest =>
      have hstuck := hq (.arrive i j) ⟨rfl, rfl⟩
      change r.step (.arrive i j) = none at hstuck
      have hd : ((r.links i j).deliver 1).1 = [packet] := by
        rw [Link.deliver, hl]
        rfl
      have hopen : (r.peers j).messageLoop = .running ∧ (r.peers j).receiverClosed = false :=
        ⟨hj.1, hclosed⟩
      rw [step, hd] at hstuck
      simp only [Option.map_eq_none_iff] at hstuck
      rw [WebRtcState.step, if_pos ⟨hp, fun he => absurd he Bool.false_ne_true⟩, WebRtcState.act,
        if_pos hopen] at hstuck
      cases hstuck

/-- What the streams have received is the first part of what has come in. -/
theorem receivedFrom_isPrefix (r : Room) (i j : PeerId) :
  r.receivedFrom i j <+: (r.transfer i j).got
  := packets_isPrefix i (List.prefix_append _ _)

/-- What has been put on the link is the first part of what the program sends. -/
theorem sent_isPrefix {r : Room} (h : RoomInv r) (i j : PeerId) :
  (r.transfer i j).sent <+: r.sentTo i j
  := by
  apply packets_isPrefix j
  exact (List.take_prefix _ _).trans (h.peers i).handlers.send.forwarded

/-- How messages go from one peer of a room to another one, whatever the peers do and in whatever
order.  The streams of messages of a peer, however many there are, receive from another one only
what it has been given to send to them, in that order, and nothing twice.  When nothing is lost they
receive it without gaps; and all of it has been received when nothing is left to do for the two
peers, nor on the link between them, as long as both take part in the room and one of the streams
goes on. -/
theorem messages_between {tr : List RoomEvent} {r : Room} (h : machine.run Room.init tr = some r)
    (i j : PeerId) :
  (r.receivedFrom i j).Sublist (r.sentTo i j) ∧
    (machine.Along Lossless Room.init tr →
      r.receivedFrom i j <+: r.sentTo i j ∧
      (machine.Quiescent (internal i j) r → (r.peers i).Live → (r.peers j).Live →
        (∃ k, (r.peers j).streams k = .receiver ∨ (r.peers j).streams k = .lock) →
        r.receivedFrom i j = r.sentTo i j))
  := by
  have hinv := RoomInv.of_run h
  refine ⟨?_, ?_⟩
  · apply (receivedFrom_isPrefix r i j).sublist.trans
    apply (carries_of_run h i j).sublist.trans
    exact (sent_isPrefix hinv i j).sublist
  · intro ha
    have hkeeps := keeps_of_run h ha i j
    refine ⟨?_, ?_⟩
    · apply (receivedFrom_isPrefix r i j).trans
      apply hkeeps.isPrefix.trans
      apply sent_isPrefix hinv
    · rintro hq hi hj ⟨k, hk⟩
      have hgot := hkeeps.got_eq (inFlight_eq_nil hinv hq hj)
      have hincoming := (hinv.peers j).incoming_eq_nil hj (quiescent_peer hq (Or.inr rfl)) hk
      have hforwarded := (hinv.peers i).forwarded_eq hi
        (WebRtcState.quiescent_run (quiescent_peer hq (Or.inl rfl)))
      calc r.receivedFrom i j
          = (r.transfer i j).got := by
            rw [receivedFrom, transfer, WebRtcState.inbox, hincoming, List.append_nil]
        _ = (r.transfer i j).sent := hgot
        _ = r.sentTo i j := by
            rw [transfer, sentTo, transmitted_eq hinv hq hi, List.take_length, hforwarded]

/-- Two peers connect.  One is given a message for the other one, of which a stream awaits
messages; the message is forwarded, put on the link, and received. -/
def twoPeers : List RoomEvent :=
  [.sink (.connect "room"), .pollSend, .sink (.send [1] ⟨1⟩), .pollSend, .subscribe, .pollConnect,
    .giveAway, .giveAway, .giveAway, .pollSendSender, .forward, .pollSendSender, .pollDisconnectSender,
    .pollDisconnectReceiver].map (.peer ⟨0⟩) ++
  ([.obtain .receive, .sink (.connect "room"), .pollSend, .subscribe, .pollConnect, .giveAway,
    .giveAway, .giveAway, .pollSendSender, .pollDisconnectSender, .pollDisconnectReceiver,
    .poll 0].map (.peer ⟨1⟩) ++
  [.connect ⟨0⟩ ⟨1⟩, .transmit ⟨0⟩, .arrive ⟨0⟩ ⟨1⟩, .peer ⟨1⟩ (.receive 0), .peer ⟨1⟩ (.poll 0)])

/-- Nothing is lost between the two peers. -/
theorem lossless_twoPeers :
  machine.Along Lossless Room.init twoPeers
  := by
  rw [twoPeers, machine.along_append]
  refine ⟨machine.along_of_forall (by simp [Lossless]) _, ?_⟩
  intro r hr
  obtain rfl := Option.some.inj hr
  rw [machine.along_append]
  refine ⟨machine.along_of_forall (by simp [Lossless]) _, ?_⟩
  intro r hr
  obtain rfl := Option.some.inj hr
  refine ⟨trivial, ?_⟩
  intro r hr
  obtain rfl := Option.some.inj hr
  refine ⟨rfl, ?_⟩
  intro r _
  apply machine.along_of_forall
  simp [Lossless]

/-- Nothing is left to do for the two peers. -/
theorem quiescent_twoPeers {r : Room} (h : machine.run Room.init twoPeers = some r) :
  machine.Quiescent (internal ⟨0⟩ ⟨1⟩) r
  := by
  obtain rfl := Option.some.inj h
  apply quiescent_of
  · intro e he
    cases e with
    | poll j => rfl
    | receive j => rfl
    | receiveEnd j => rfl
    | cancelReceive j => rfl
    | _ => first | rfl | cases he
  · intro e he
    cases e with
    | poll j => rcases j with _ | _ | j <;> rfl
    | receive j => rcases j with _ | _ | j <;> rfl
    | receiveEnd j => rcases j with _ | _ | j <;> rfl
    | cancelReceive j => rcases j with _ | _ | j <;> rfl
    | _ => first | rfl | cases he
  · rfl
  · rfl

/-- The message is received. -/
theorem messages_between_two :
  ∃ r, machine.run Room.init twoPeers = some r ∧ r.receivedFrom ⟨0⟩ ⟨1⟩ = r.sentTo ⟨0⟩ ⟨1⟩ ∧
    r.sentTo ⟨0⟩ ⟨1⟩ = [[1]]
  := by
  refine ⟨_, rfl, ?_, rfl⟩
  apply ((@messages_between twoPeers _ rfl ⟨0⟩ ⟨1⟩).2 lossless_twoPeers).2 (quiescent_twoPeers rfl)
  · exact ⟨rfl, rfl⟩
  · exact ⟨rfl, rfl⟩
  · exact ⟨0, Or.inr rfl⟩

end Room

end WebRtc

end Cyclers
