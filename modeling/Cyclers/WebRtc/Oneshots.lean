import Cyclers.WebRtc.Driver

/-!
# The oneshot channels of the WebRTC driver

When the driver connects it gives the socket, and the sender and the receiver of the data channel,
away through oneshot channels, and it panics when no one is there to take them.  Those who take
them, in turn, panic when the driver has gone without connecting.  Whether this happens depends on
what the program holds of the source, and on which future is polled first.
-/

open Async

namespace Cyclers

namespace WebRtc

/-- How far the handler of the command to connect has come with a oneshot channel. -/
def MessageLoop.sender : MessageLoop → Oneshots → OneshotSender
  | .next _, _ => .held
  | .send .socket, _ => .held
  | .send .channelSender, .socket => .sent
  | .send .channelSender, _ => .held
  | .send .channelReceiver, .channelReceiver => .held
  | .send .channelReceiver, _ => .sent
  | .running, _ => .sent
  | .ended true, _ => .sent
  | .ended false, _ => .dropped

theorem MessageLoop.sender_eq_dropped {l : MessageLoop} {c : Oneshots} :
  l.sender c = .dropped ↔ l = .ended false
  := by
  cases l with
  | next n => simp [sender]
  | send c' => cases c' <;> cases c <;> simp [sender]
  | running => simp [sender]
  | ended connected => cases connected <;> simp [sender]

theorem MessageLoop.sender_channelReceiver {l : MessageLoop} :
  l.sender .channelReceiver = .sent ↔ l.connected = true
  := by
  cases l with
  | next n => simp [sender, connected]
  | send c => cases c <;> simp [sender, connected]
  | running => simp [sender, connected]
  | ended connected => cases connected <;> simp [sender, MessageLoop.connected]

theorem MessageLoop.sender_of_connected {l : MessageLoop} (h : l.connected = true)
    (c : Oneshots) :
  l.sender c = .sent
  := by
  cases l with
  | next n => cases h
  | send c => cases h
  | running => rfl
  | ended connected =>
      obtain rfl : connected = true := h
      rfl

/-- What has been sent stays sent when something more is given away. -/
theorem Oneshots.sender_next (c c' : Oneshots) :
  c.next.sender c' = if c' = c then .sent else (MessageLoop.send c).sender c'
  := by
  cases c <;> cases c' <;> rfl

namespace WebRtcState

/-- A party holds the receiver of a oneshot channel. -/
def Holds (s : WebRtcState) (c : Oneshots) : Party → Prop
  | .source => s.source = true ∧ c ≠ .channelSender
  | .sendHandler => s.send ≠ .ended ∧ c = .channelSender
  | .disconnectHandler => s.disconnect ≠ .ended ∧ c ≠ .socket
  | .stream j => (s.streams j).oneshot = some c

/-- What the oneshot channels tell of their receivers. -/
def Held (s : WebRtcState) : Prop :=
  ∀ c p, p ∈ (s.oneshots c).holders ↔ s.Holds c p

/-- What the oneshot channels tell of their senders. -/
def Given (s : WebRtcState) : Prop :=
  ∀ c, (s.oneshots c).sender = s.messageLoop.sender c

theorem Held.init :
  Held init
  := by
  intro c p
  cases c <;> cases p <;> simp [WebRtcState.init, Holds, StreamTask.oneshot]

theorem Given.init :
  Given init
  := by
  intro c
  cases c <;> rfl

/-- All has been sent once the driver has connected. -/
theorem Given.sent {s : WebRtcState} (h : Given s) (hl : s.messageLoop.connected = true)
    (c : Oneshots) :
  (s.oneshots c).sender = .sent
  := by
  rw [h c, MessageLoop.sender_of_connected hl]

/-- What is held depends on what there is to hold it only. -/
theorem Held.congr {s t : WebRtcState} (h : Held s) (ho : t.oneshots = s.oneshots)
    (hsource : t.source = s.source) (hstreams : t.streams = s.streams)
    (hsend : t.send = .ended ↔ s.send = .ended)
    (hdisconnect : t.disconnect = .ended ↔ s.disconnect = .ended) :
  Held t
  := by
  intro c p
  rw [ho, h c p]
  cases p with
  | source => rw [Holds, Holds, hsource]
  | sendHandler => exact and_congr_left' (not_congr hsend.symm)
  | disconnectHandler => exact and_congr_left' (not_congr hdisconnect.symm)
  | stream j => rw [Holds, Holds, hstreams]

/-- A party gives up what it holds. -/
theorem Held.release {s t : WebRtcState} (h : Held s) (p : Party)
    (ht : ∀ c, t.oneshots c = (s.oneshots c).drop p)
    (hold : ∀ c q, t.Holds c q ↔ q ≠ p ∧ s.Holds c q) :
  Held t
  := by
  intro c q
  rw [ht, Oneshot.mem_drop, h c q, hold c q]

theorem Held.endSend {s : WebRtcState} (h : Held s) :
  Held s.endSend
  := by
  apply h.release .sendHandler (fun _ => rfl)
  intro c q
  cases q <;> simp [WebRtcState.endSend, WebRtcState.release, Holds]

theorem Held.endDisconnect {s : WebRtcState} (h : Held s) :
  Held s.endDisconnect
  := by
  apply h.release .disconnectHandler (fun _ => rfl)
  intro c q
  cases q <;> simp [WebRtcState.endDisconnect, WebRtcState.release, Holds]

theorem Held.dropSource {s : WebRtcState} (h : Held s) :
  Held { s.release .source with source := false }
  := by
  apply h.release .source (fun _ => rfl)
  intro c q
  cases q <;> simp [WebRtcState.release, Holds]

theorem Held.endStream {s : WebRtcState} (h : Held s) (j : ℕ) {task : StreamTask}
    (ht : task.oneshot = none) :
  Held (s.endStream j task)
  := by
  apply h.release (.stream j) (fun _ => rfl)
  intro c q
  cases q with
  | stream j' =>
      by_cases hj : j' = j
      · subst hj
        simp [WebRtcState.endStream, WebRtcState.setTask, WebRtcState.release, Holds, ht]
      · simp [WebRtcState.endStream, WebRtcState.setTask, WebRtcState.release, Holds, hj]
  | _ => simp [WebRtcState.endStream, WebRtcState.setTask, WebRtcState.release, Holds]

/-- A stream goes on, and holds what it held. -/
theorem Held.setTask {s : WebRtcState} (h : Held s) (j : ℕ) {task : StreamTask}
    (ht : task.oneshot = (s.streams j).oneshot) :
  Held (s.setTask j task)
  := by
  intro c q
  change q ∈ (s.oneshots c).holders ↔ _
  rw [h c q]
  cases q with
  | stream j' =>
      by_cases hj : j' = j
      · subst hj
        simp [WebRtcState.setTask, Holds, ht]
      · simp [WebRtcState.setTask, Holds, hj]
  | _ => rfl

theorem Held.endConnect {s : WebRtcState} (h : Held s) :
  Held s.endConnect
  := by
  intro c q
  change q ∈ (s.oneshots c).dropSender.holders ↔ _
  rw [Oneshot.holders_dropSender, h c q]
  cases q <;> rfl

theorem Held.fail {s : WebRtcState} (h : Held s) (err : BoxError) :
  Held (s.fail err)
  := by
  intro c q
  rw [WebRtcState.fail, Oneshot.holders_dropSender, Oneshot.mem_drop, Oneshot.mem_drop, h c q]
  cases q <;> simp [Holds]

/-- A stream is obtained, which gets a clone of what its method needs. -/
theorem Held.obtain {s : WebRtcState} (h : Held s) (hfresh : s.streams s.count = .dropped)
    (method : SourceMethod) :
  Held ({ s with
    count := s.count + 1
    oneshots := fun c =>
      if method.task.oneshot = some c then (s.oneshots c).clone (.stream s.count)
      else s.oneshots c }.setTask s.count method.task)
  := by
  intro c q
  have hnot : .stream s.count ∉ (s.oneshots c).holders := by
    rw [h c, Holds, hfresh]
    exact nofun
  by_cases hq : q = .stream s.count
  · subst hq
    by_cases hc : method.task.oneshot = some c
    · simp [WebRtcState.setTask, Holds, hc]
    · simp [WebRtcState.setTask, Holds, hc, hnot]
  · have hsame : q ∈ (if method.task.oneshot = some c then (s.oneshots c).clone (.stream s.count)
        else s.oneshots c).holders ↔ q ∈ (s.oneshots c).holders := by
      split
      · simp [hq]
      · rfl
    change q ∈ (if method.task.oneshot = some c then (s.oneshots c).clone (.stream s.count)
      else s.oneshots c).holders ↔ _
    rw [hsame, h c q]
    cases q with
    | stream j =>
        have hj : j ≠ s.count := by
          rintro rfl
          exact hq rfl
        simp [WebRtcState.setTask, Holds, hj]
    | _ => rfl

/-- The handler of the command to connect ends, before it connects or after it has given all
away. -/
theorem Given.endConnect {s : WebRtcState} (h : Given s)
    (hl : s.messageLoop.connected = true ∨ ∃ next, s.messageLoop = .next next) :
  Given s.endConnect
  := by
  intro c
  change (s.oneshots c).dropSender.sender = MessageLoop.sender (.ended s.messageLoop.connected) c
  rcases hl with hl | ⟨next, hl⟩
  · have hs : (s.oneshots c).sender = .sent := h.sent hl c
    rw [Oneshot.dropSender_of_sent hs, hs, hl]
    rfl
  · have hs : (s.oneshots c).sender = .held := by
      rw [h c, hl]
      rfl
    rw [Oneshot.dropSender_of_held hs, hl]
    rfl

/-- The run fails, when all has been given away. -/
theorem Given.fail {s : WebRtcState} (h : Given s) (hl : s.messageLoop.connected = true)
    (err : BoxError) :
  Given (s.fail err)
  := by
  intro c
  have hs : (((s.oneshots c).drop .sendHandler).drop .disconnectHandler).sender = .sent := by
    rw [Oneshot.sender_drop, Oneshot.sender_drop, h.sent hl c]
  change Oneshot.sender (Oneshot.dropSender _) = _
  rw [Oneshot.dropSender_of_sent hs, hs, WebRtcState.fail, hl]
  rfl

/-- Something is given away. -/
theorem Given.giveAway {s : WebRtcState} (h : Given s) {c : Oneshots}
    (hl : s.messageLoop = .send c) :
  Given { s with
    oneshots := Function.update s.oneshots c { s.oneshots c with sender := .sent }
    messageLoop := c.next }
  := by
  intro c'
  change (Function.update s.oneshots c _ c').sender = c.next.sender c'
  rw [Oneshots.sender_next]
  by_cases hc : c' = c
  · subst hc
    rw [Function.update_self, if_pos rfl]
  · rw [Function.update_of_ne hc, if_neg hc, h c', hl]

/-- The invariant of the oneshot channels.  The handlers have what has been sent only, the driver
disconnects only when it has connected, and someone has panicked only when it has not. -/
structure OneshotInv (s : WebRtcState) : Prop where
  held : Held s
  given : Given s
  fresh : ∀ j, s.count ≤ j → s.streams j = .dropped
  sender : ∀ next message, s.send = .zip next true message →
    (s.oneshots .channelSender).sender = .sent
  receiver : ∀ next sender command, s.disconnect = .zip next sender true command →
    s.messageLoop.connected = true
  closed : s.senderClosed = true → s.messageLoop.connected = true
  cancelled : s.cancelled = s.senderClosed
  panicked : s.panicked ≠ none →
    s.messageLoop = .ended false ∨ ∃ c, s.messageLoop = .send c ∧ ∀ p, ¬ s.Holds c p

theorem OneshotInv.init :
  OneshotInv init
  := by
  refine ⟨Held.init, Given.init, fun _ _ => rfl, nofun, nofun, nofun, rfl, ?_⟩
  intro h
  cases h rfl

/-- The driver has connected when a message can be forwarded no more. -/
theorem OneshotInv.connected_of_fail {s : WebRtcState} (h : OneshotInv s)
    (hc : s.senderClosed = true ∨ s.messageLoop = .ended true) :
  s.messageLoop.connected = true
  := by
  rcases hc with hc | hl
  · exact h.closed hc
  · rw [hl]
    rfl

/-- The handler of the command to connect ends. -/
theorem OneshotInv.endConnect {s : WebRtcState} (h : OneshotInv s) (hp : s.panicked = none)
    (hl : s.messageLoop.connected = true ∨ ∃ next, s.messageLoop = .next next) :
  OneshotInv s.endConnect
  := by
  refine ⟨h.held.endConnect, h.given.endConnect hl, h.fresh, ?_, h.receiver, h.closed,
    h.cancelled, ?_⟩
  · intro next message hz
    change (s.oneshots .channelSender).dropSender.sender = .sent
    rw [Oneshot.dropSender_of_sent (h.sender next message hz)]
    apply h.sender next message hz
  · intro hn
    cases hn hp

/-- The handler of the commands to send ends. -/
theorem OneshotInv.endSend {s : WebRtcState} (h : OneshotInv s) (hp : s.panicked = none) :
  OneshotInv s.endSend
  := by
  refine ⟨h.held.endSend, h.given, h.fresh, nofun, h.receiver, h.closed, h.cancelled, ?_⟩
  intro hn
  cases hn hp

/-- The handler of the command to disconnect ends. -/
theorem OneshotInv.endDisconnect {s : WebRtcState} (h : OneshotInv s) (hp : s.panicked = none) :
  OneshotInv s.endDisconnect
  := by
  refine ⟨h.held.endDisconnect, h.given, h.fresh, h.sender, nofun, h.closed, h.cancelled, ?_⟩
  intro hn
  cases hn hp

/-- The run fails, after it has connected. -/
theorem OneshotInv.fail {s : WebRtcState} (h : OneshotInv s) (hp : s.panicked = none)
    (hl : s.messageLoop.connected = true) (err : BoxError) :
  OneshotInv (s.fail err)
  := by
  refine ⟨h.held.fail err, h.given.fail hl err, h.fresh, nofun, nofun, h.closed, h.cancelled, ?_⟩
  intro hn
  cases hn hp

/-- A stream ends, or is dropped. -/
theorem OneshotInv.endStream {s : WebRtcState} (h : OneshotInv s) (hp : s.panicked = none)
    {j : ℕ} {task : StreamTask} (ht : task.oneshot = none)
    (hj : s.count ≤ j → task = .dropped) :
  OneshotInv (s.endStream j task)
  := by
  refine ⟨h.held.endStream j ht, h.given, ?_, h.sender, h.receiver, h.closed, h.cancelled, ?_⟩
  · intro j' hle
    by_cases hj' : j' = j
    · subst hj'
      change Function.update s.streams j' task j' = .dropped
      rw [Function.update_self, hj hle]
    · change Function.update s.streams j task j' = .dropped
      rw [Function.update_of_ne hj']
      apply h.fresh j' hle
  · intro hn
    cases hn hp

/-- A stream goes on, and holds what it held. -/
theorem OneshotInv.setTask {s : WebRtcState} (h : OneshotInv s) (hp : s.panicked = none)
    {j : ℕ} {task : StreamTask} (ht : task.oneshot = (s.streams j).oneshot)
    (hj : s.streams j ≠ .dropped) :
  OneshotInv (s.setTask j task)
  := by
  refine ⟨h.held.setTask j ht, h.given, ?_, h.sender, h.receiver, h.closed, h.cancelled, ?_⟩
  · intro j' hle
    have hj' : j' ≠ j := by
      rintro rfl
      exact hj (h.fresh j' hle)
    change Function.update s.streams j task j' = .dropped
    rw [Function.update_of_ne hj']
    apply h.fresh j' hle
  · intro hn
    cases hn hp

/-- The handler of the commands to send goes on. -/
theorem OneshotInv.zipSend {s : WebRtcState} (h : OneshotInv s) (hp : s.panicked = none)
    {next next' : ℕ} {sender sender' : Bool} {message message' : Option Message}
    {forwarded : List Message} (hz : s.send = .zip next sender message)
    (hs : sender' = true → sender = true ∨ (s.oneshots .channelSender).sender = .sent) :
  OneshotInv { s with forwarded := forwarded, send := .zip next' sender' message' }
  := by
  refine ⟨?_, h.given, h.fresh, ?_, h.receiver, h.closed, h.cancelled, ?_⟩
  · refine h.held.congr rfl rfl rfl ?_ Iff.rfl
    simp [hz]
  · rintro _ _ ⟨⟩
    rcases hs rfl with rfl | hs
    · apply h.sender next message hz
    · exact hs
  · intro hn
    cases hn hp

/-- The handler of the command to disconnect goes on. -/
theorem OneshotInv.zipDisconnect {s : WebRtcState} (h : OneshotInv s) (hp : s.panicked = none)
    {next next' : ℕ} {sender sender' receiver receiver' command command' : Bool}
    (hz : s.disconnect = .zip next sender receiver command)
    (hs : receiver' = true → receiver = true ∨ s.messageLoop.connected = true) :
  OneshotInv { s with disconnect := .zip next' sender' receiver' command' }
  := by
  refine ⟨?_, h.given, h.fresh, h.sender, ?_, h.closed, h.cancelled, ?_⟩
  · refine h.held.congr rfl rfl rfl Iff.rfl ?_
    simp [hz]
  · rintro _ _ _ ⟨⟩
    rcases hs rfl with rfl | hs
    · apply h.receiver next sender command hz
    · exact hs
  · intro hn
    cases hn hp

/-- The handler of the command to connect goes on, before it gives anything away. -/
theorem OneshotInv.next {s : WebRtcState} (h : OneshotInv s) (hp : s.panicked = none) {next : ℕ}
    (hl : s.messageLoop = .next next) {l : MessageLoop} (hheld : ∀ c, l.sender c = .held) :
  OneshotInv { s with messageLoop := l }
  := by
  have hnot : ∀ {P : Prop}, s.messageLoop.connected = true → P := by
    intro P hc
    rw [hl] at hc
    cases hc
  refine ⟨h.held.congr rfl rfl rfl Iff.rfl Iff.rfl, ?_, h.fresh, h.sender, ?_, ?_, h.cancelled, ?_⟩
  · intro c
    change (s.oneshots c).sender = l.sender c
    rw [h.given c, hl, hheld c]
    rfl
  · intro next sender command hz
    apply hnot (h.receiver next sender command hz)
  · intro hc
    apply hnot (h.closed hc)
  · intro hn
    cases hn hp

/-- Something is given away. -/
theorem OneshotInv.giveAway {s : WebRtcState} (h : OneshotInv s) (hp : s.panicked = none)
    {c : Oneshots} (hl : s.messageLoop = .send c) :
  OneshotInv { s with
    oneshots := Function.update s.oneshots c { s.oneshots c with sender := .sent }
    messageLoop := c.next }
  := by
  have hnot : ∀ {P : Prop}, s.messageLoop.connected = true → P := by
    intro P hc
    rw [hl] at hc
    cases hc
  have hgiven := h.given.giveAway hl
  refine ⟨?_, hgiven, h.fresh, ?_, ?_, ?_, h.cancelled, ?_⟩
  · intro c' p
    have hholders : (Function.update s.oneshots c { s.oneshots c with sender := .sent } c').holders =
        (s.oneshots c').holders := by
      by_cases hc : c' = c
      · subst hc
        rw [Function.update_self]
      · rw [Function.update_of_ne hc]
    change p ∈ (Function.update s.oneshots c _ c').holders ↔ _
    rw [hholders, h.held c' p]
    cases p <;> rfl
  · intro next message hz
    rw [hgiven .channelSender]
    change c.next.sender .channelSender = .sent
    rw [Oneshots.sender_next, ← hl, ← h.given, h.sender next message hz, ite_self]
  · intro next sender command hz
    apply hnot (h.receiver next sender command hz)
  · intro hc
    apply hnot (h.closed hc)
  · intro hn
    cases hn hp

/-- An event keeps the invariant of the oneshot channels. -/
theorem OneshotInv.step {s t : WebRtcState} {e : WebRtcEvent} (h : OneshotInv s)
    (hp : s.panicked = none) (hs : Step s e t) :
  OneshotInv t
  := by
  have hno : ∀ {P : Prop}, s.panicked ≠ none → P := fun hn => absurd hp hn
  have hlive : ∀ {j : ℕ} {task : StreamTask}, s.streams j = task → task ≠ .dropped →
      ¬ s.count ≤ j := by
    intro j task ht hne hle
    exact hne (ht.symm.trans (h.fresh j hle))
  cases hs with
  | dropSource hsource =>
      exact ⟨h.held.dropSource, h.given, h.fresh, h.sender, h.receiver, h.closed, h.cancelled, hno⟩
  | obtain method hsource =>
      refine ⟨h.held.obtain (h.fresh _ (Nat.le_refl _)) method, ?_, ?_, ?_, h.receiver, h.closed,
        h.cancelled, hno⟩
      · intro c
        change (if method.task.oneshot = some c then (s.oneshots c).clone (.stream s.count)
          else s.oneshots c).sender = s.messageLoop.sender c
        rw [← h.given c]
        split <;> rfl
      · intro j hle
        change Function.update s.streams s.count method.task j = .dropped
        rw [Function.update_of_ne (Nat.ne_of_gt hle)]
        apply h.fresh j (Nat.le_of_succ_le hle)
      · intro next message hz
        change (if method.task.oneshot = some .channelSender then
          (s.oneshots .channelSender).clone (.stream s.count)
          else s.oneshots .channelSender).sender = .sent
        rw [← h.sender next message hz]
        split <;> rfl
  | drop j hj => apply h.endStream hp rfl fun _ => rfl
  | loopEnd hl =>
      apply h.endConnect hp
      left
      rw [hl]
      rfl
  | loopFail err hl =>
      apply h.fail hp
      rw [hl]
      rfl
  | takeSend next sender packet peerId hz hget => exact h.zipSend hp hz .inl
  | skipSend next sender command hz hget hn => exact h.zipSend hp hz .inl
  | sendEnd next sender hz hle he => apply h.endSend hp
  | sendSender next message hz hs => exact h.zipSend hp hz fun _ => .inr hs
  | forward next message hz hc hl => exact h.zipSend hp hz (by simp)
  | forwardFail next message hz hc =>
      exact h.fail hp (h.connected_of_fail hc) _
  | cancelSend hz hc => apply h.endSend hp
  | subscribe next sender receiver command hn hz =>
      have hzip : OneshotInv
          { s with disconnect := .zip s.sink.length sender receiver command } :=
        h.zipDisconnect hp hz .inl
      obtain ⟨hheld, hgiven, hfresh, hsender, hreceiver, hclosed, hcancelled, hpanicked⟩ := hzip
      exact ⟨hheld.congr rfl rfl rfl Iff.rfl Iff.rfl, hgiven, hfresh, hsender, hreceiver, hclosed,
        hcancelled, hpanicked⟩
  | takeDisconnect i next sender receiver hi hz hget => exact h.zipDisconnect hp hz .inl
  | skipDisconnect next sender receiver command hz hget hn => exact h.zipDisconnect hp hz .inl
  | disconnectEnd i next sender receiver hi hz hle he => apply h.endDisconnect hp
  | disconnectSender next receiver command hz hs => exact h.zipDisconnect hp hz .inl
  | disconnectReceiver next sender command hz hs =>
      apply h.zipDisconnect hp hz
      intro _
      right
      rw [h.given] at hs
      apply MessageLoop.sender_channelReceiver.mp hs
  | disconnect next hz =>
      refine ⟨?_, h.given, h.fresh, h.sender, by simp, ?_, rfl, hno⟩
      · refine h.held.congr rfl rfl rfl Iff.rfl ?_
        simp [hz]
      · intro _
        apply h.receiver next true true hz
  | lock hd =>
      refine ⟨?_, h.given, h.fresh, h.sender, by simp, h.closed, h.cancelled, hno⟩
      refine h.held.congr rfl rfl rfl Iff.rfl ?_
      simp [hd]
  | close hd hh =>
      have hend := h.endDisconnect hp
      exact ⟨hend.held.congr rfl rfl rfl Iff.rfl Iff.rfl, hend.given, hend.fresh, hend.sender,
        hend.receiver, hend.closed, hend.cancelled, hno⟩
  | takeConnect i next roomUrl hi hl hget => apply h.next hp hl fun c => rfl
  | skipConnect next command hl hget hn => apply h.next hp hl fun c => rfl
  | connectEnd i next hi hl hle he => apply h.endConnect hp (.inr ⟨next, hl⟩)
  | giveAway c hl hne => apply h.giveAway hp hl
  | disconnected c hl hnil =>
      refine ⟨h.held.congr rfl rfl rfl Iff.rfl Iff.rfl, h.given, h.fresh, h.sender, h.receiver,
        h.closed, h.cancelled, ?_⟩
      intro _
      right
      use c, hl
      intro p hold
      have hmem := (h.held c p).mpr hold
      rw [hnil] at hmem
      cases hmem
  | withoutSending e c hpolled hs =>
      refine ⟨h.held.congr rfl rfl rfl Iff.rfl Iff.rfl, h.given, h.fresh, h.sender, h.receiver,
        h.closed, h.cancelled, ?_⟩
      intro _
      left
      rw [h.given] at hs
      apply MessageLoop.sender_eq_dropped.mp hs
  | pollSocket j ht hs =>
      apply h.setTask hp
      · rw [ht]
        rfl
      · simp [ht]
  | pollReceiver j ht hs =>
      have hlock : OneshotInv { s with receiver := s.receiver.lock (.stream j) } :=
        ⟨h.held.congr rfl rfl rfl Iff.rfl Iff.rfl, h.given, h.fresh, h.sender, h.receiver,
          h.closed, h.cancelled, hno⟩
      apply hlock.setTask hp
      · change _ = (s.streams j).oneshot
        rw [ht]
        rfl
      · change s.streams j ≠ .dropped
        simp [ht]
  | receive j message incoming ht hi hh =>
      have hreceived : OneshotInv { s with
          receiver := s.receiver.leave (.stream j)
          incoming := incoming
          received := s.received ++ [(j, message)] } :=
        ⟨h.held.congr rfl rfl rfl Iff.rfl Iff.rfl, h.given, h.fresh, h.sender, h.receiver,
          h.closed, h.cancelled, hno⟩
      apply hreceived.setTask hp
      · change _ = (s.streams j).oneshot
        rw [ht]
        rfl
      · change s.streams j ≠ .dropped
        simp [ht]
  | receiveEnd j ht hh hi hc => apply h.endStream hp rfl fun hle => absurd hle (hlive ht (by simp))
  | cancelReceive j ht hh hc => apply h.endStream hp rfl fun hle => absurd hle (hlive ht (by simp))
  | _ =>
      exact ⟨h.held.congr rfl rfl rfl Iff.rfl Iff.rfl, h.given, h.fresh, h.sender, h.receiver,
        h.closed, h.cancelled, hno⟩

/-- The invariant of the oneshot channels holds of every state reached. -/
theorem OneshotInv.of_run {tr : List WebRtcEvent} {s : WebRtcState}
    (h : machine.run WebRtcState.init tr = some s) :
  OneshotInv s
  := by
  apply machine.run_invariant OneshotInv.init _ h
  intro s e t hs ht
  obtain ⟨hp, -, hstep⟩ := step_of_machine ht
  apply hs.step hp hstep

/-! ### When no one panics -/

/-- An event is safe: what is given away is held by someone, and no one polls for what the driver
gives away once it has gone without connecting. -/
def Safe (s : WebRtcState) : WebRtcEvent → Prop
  | .giveAway => ∀ c, s.messageLoop = .send c → ∃ p, s.Holds c p
  | e => s.polled e ≠ none → s.messageLoop ≠ .ended false

/-- Polling is safe when the driver has not gone without connecting. -/
theorem safe_of_polled {s : WebRtcState} {e : WebRtcEvent} {c : Oneshots}
    (hpolled : s.polled e = some c) :
  s.Safe e ↔ s.messageLoop ≠ .ended false
  := by
  have hne : s.polled e ≠ none := by
    rw [hpolled]
    exact Option.some_ne_none c
  cases e with
  | giveAway => cases hpolled
  | _ => exact forall_prop_of_true hne

/-- Events that neither give anything away nor poll for it are safe. -/
theorem safe_of_not_polled {s : WebRtcState} {e : WebRtcEvent} (hne : e ≠ .giveAway)
    (hpolled : s.polled e = none) :
  s.Safe e
  := by
  cases e with
  | giveAway => cases hne rfl
  | _ =>
      intro h
      cases h hpolled

/-- No one panics by an event exactly when it is safe. -/
theorem OneshotInv.panicked_iff {s t : WebRtcState} {e : WebRtcEvent} (h : OneshotInv s)
    (hp : s.panicked = none) (hs : Step s e t) :
  t.panicked = none ↔ s.Safe e
  := by
  have hsent : ∀ {e : WebRtcEvent} {c : Oneshots}, s.polled e = some c →
      (s.oneshots c).sender = .sent → s.Safe e := by
    intro e c hpolled hs
    rw [safe_of_polled hpolled, Ne, ← MessageLoop.sender_eq_dropped (c := c), ← h.given, hs]
    exact nofun
  cases hs with
  | giveAway c hl hne =>
      apply iff_of_true hp
      rintro c' hl'
      obtain rfl : c = c' := by
        rw [hl] at hl'
        cases hl'
        rfl
      obtain ⟨p, hmem⟩ := List.exists_mem_of_ne_nil _ hne
      exact ⟨p, (h.held c p).mp hmem⟩
  | disconnected c hl hnil =>
      apply iff_of_false (by simp [WebRtcState.panic])
      intro hsafe
      obtain ⟨p, hold⟩ := hsafe c hl
      have hmem := (h.held c p).mpr hold
      rw [hnil] at hmem
      cases hmem
  | withoutSending e c hpolled hd =>
      apply iff_of_false (by simp [WebRtcState.panic])
      rw [safe_of_polled hpolled, Ne, not_not, ← MessageLoop.sender_eq_dropped (c := c), ← h.given,
        hd]
  | sendSender next message hz hs => exact iff_of_true hp (hsent rfl hs)
  | disconnectSender next receiver command hz hs => exact iff_of_true hp (hsent rfl hs)
  | disconnectReceiver next sender command hz hs => exact iff_of_true hp (hsent rfl hs)
  | pollSocket j ht hs =>
      apply iff_of_true hp
      refine hsent ?_ hs
      rw [polled, ht]
      rfl
  | pollReceiver j ht hs =>
      apply iff_of_true hp
      refine hsent ?_ hs
      rw [polled, ht]
      rfl
  | _ => exact iff_of_true hp (safe_of_not_polled (by simp) rfl)

/-- When no one panics.  In a run no one has panicked exactly when every event of it was safe: when
the driver gave the socket away, the source or a stream of peers was held; when it gave the sender
of the data channel away, one of the handlers of the commands to send and to disconnect had not
ended; when it gave the receiver away, the handler to disconnect had not ended, or the source or a
stream of messages was held; and no handler and no stream polled for any of them when the driver
had gone without connecting. -/
theorem not_panicked_iff {tr : List WebRtcEvent} {s : WebRtcState}
    (h : machine.run WebRtcState.init tr = some s) :
  s.panicked = none ↔ machine.Along Safe WebRtcState.init tr
  := by
  revert tr s
  apply machine.run_induction (P := fun tr s =>
    s.panicked = none ↔ machine.Along Safe WebRtcState.init tr)
  · exact iff_of_true rfl trivial
  · intro tr s e t hr hiff hs
    obtain ⟨hp, -, hstep⟩ := step_of_machine hs
    have hsafe := (OneshotInv.of_run hr).panicked_iff hp hstep
    rw [machine.along_append, hsafe]
    constructor
    · intro he
      refine ⟨hiff.mp hp, ?_⟩
      intro s' hs'
      rw [hr] at hs'
      cases hs'
      exact ⟨he, fun _ _ => trivial⟩
    · rintro ⟨-, he⟩
      apply (he s hr).1

/-- The driver panics when the sink ends after the command to connect, as both handlers have ended
by then; also with a command to disconnect after that one, which the handler has missed; when the
source has been dropped; and, if the sink ends without a command to connect, when the handler of the
commands to send, or a stream of peers, is polled after that.  It does not when the sink yields a
command to disconnect, and ends. -/
theorem panics :
  (machine.run WebRtcState.init [.sink (.connect "room"), .pollSend, .sinkEnd, .pollSend, .subscribe,
      .pollDisconnect, .pollConnect, .giveAway, .giveAway]).bind panicked =
    some "channel_sender_rx should not be disconnected" ∧
  (machine.run WebRtcState.init [.sink (.connect "room"), .pollSend, .sink .disconnect, .pollSend,
      .sinkEnd, .pollSend, .subscribe, .pollDisconnect, .pollConnect, .giveAway, .giveAway]).bind
      panicked = some "channel_sender_rx should not be disconnected" ∧
  (machine.run WebRtcState.init [.sink (.connect "room"), .pollSend, .subscribe, .dropSource,
      .pollConnect, .giveAway]).bind panicked = some "socket_rx should not be disconnected" ∧
  (machine.run WebRtcState.init [.sink (.send [1] ⟨0⟩), .pollSend, .subscribe, .sinkEnd,
      .pollConnect, .pollConnect, .pollSendSender]).bind panicked =
    some "channel_sender_tx dropped without sending" ∧
  (machine.run WebRtcState.init [.obtain .peerChanges, .sinkEnd, .pollSend, .subscribe,
      .pollDisconnect, .pollConnect, .poll 0]).bind panicked =
    some "socket_tx dropped without sending" ∧
  (machine.run WebRtcState.init [.sink .disconnect, .pollSend, .sinkEnd, .pollSend, .subscribe,
      .pollDisconnect, .pollConnect, .pollConnect, .finish]).bind outcome = some (.ok ())
  := ⟨rfl, rfl, rfl, rfl, rfl, rfl⟩

/-- No one panics when the source is held and the sink goes on. -/
theorem not_panicked_connect :
  ∃ s, machine.run WebRtcState.init
      [.obtain .receive, .sink (.connect "room"), .pollSend, .subscribe, .pollConnect, .giveAway,
        .giveAway, .giveAway, .poll 0, .pollSendSender] = some s ∧ s.panicked = none ∧
    machine.Along Safe WebRtcState.init
      [.obtain .receive, .sink (.connect "room"), .pollSend, .subscribe, .pollConnect, .giveAway,
        .giveAway, .giveAway, .poll 0, .pollSendSender]
  := ⟨_, rfl, rfl, (not_panicked_iff rfl).mp rfl⟩

end WebRtcState

end WebRtc

end Cyclers
