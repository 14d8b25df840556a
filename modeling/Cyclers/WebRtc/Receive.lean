import Cyclers.WebRtc.Oneshots

/-!
# Receiving messages

The streams of messages share one receiver behind a mutex.  Each holds the lock while it awaits a
message, and the handler of the command to disconnect needs the lock to close the receiver.  It
cancels a token before it asks for the lock, so that whoever holds it lets it go.
-/

open Async

namespace Cyclers

namespace WebRtc

namespace WebRtcState

/-- A party has asked for the lock of the receiver. -/
def Queued (s : WebRtcState) : Party → Prop
  | .disconnectHandler => s.disconnect = .lock
  | .stream j => s.streams j = .lock
  | _ => False

/-- The parties that hold the lock or wait for it are those that have asked for it. -/
def Queues (s : WebRtcState) : Prop :=
  ∀ p, p ∈ s.receiver.queue ↔ s.Queued p

/-- Who has asked for the lock depends on the streams and the handler only. -/
theorem Queues.congr {s t : WebRtcState} (h : Queues s) (hr : t.receiver = s.receiver)
    (hstreams : t.streams = s.streams) (hd : t.disconnect = .lock ↔ s.disconnect = .lock) :
  Queues t
  := by
  intro p
  rw [hr, h p]
  cases p with
  | disconnectHandler => exact hd.symm
  | stream j => rw [Queued, Queued, hstreams]
  | _ => rfl

/-- A party leaves the lock. -/
theorem Queues.leave {s t : WebRtcState} (h : Queues s) (q : Party)
    (hr : t.receiver = s.receiver.leave q) (ht : ∀ p, t.Queued p ↔ p ≠ q ∧ s.Queued p) :
  Queues t
  := by
  intro p
  rw [hr, Mutex.mem_leave, h p, ht p]

/-- A party asks for the lock. -/
theorem Queues.lock {s t : WebRtcState} (h : Queues s) (q : Party)
    (hr : t.receiver = s.receiver.lock q) (ht : ∀ p, t.Queued p ↔ s.Queued p ∨ p = q) :
  Queues t
  := by
  intro p
  rw [hr, Mutex.mem_lock, h p, ht p]

/-- Who has asked for the lock when a stream goes on. -/
theorem queued_setTask {s : WebRtcState} {j : ℕ} {task : StreamTask} {p : Party} :
  (s.setTask j task).Queued p ↔
    (p = .stream j ∧ task = .lock) ∨ (p ≠ .stream j ∧ s.Queued p)
  := by
  cases p with
  | stream j' =>
      by_cases hj : j' = j
      · subst hj
        simp [setTask, Queued]
      · simp [setTask, Queued, hj]
  | _ => simp [setTask, Queued]

/-- A stream that has not asked for the lock goes on without doing so. -/
theorem Queues.setTask {s : WebRtcState} (h : Queues s) {j : ℕ} (hj : s.streams j ≠ .lock)
    {task : StreamTask} (ht : task ≠ .lock) :
  Queues (s.setTask j task)
  := by
  intro p
  change p ∈ s.receiver.queue ↔ _
  rw [h p, queued_setTask]
  constructor
  · intro hp
    right
    refine ⟨?_, hp⟩
    rintro rfl
    exact hj hp
  · rintro (⟨-, rfl⟩ | ⟨-, hp⟩)
    · cases ht rfl
    · exact hp

/-- A stream leaves the lock, and goes on without asking for it. -/
theorem Queues.leaveStream {s t : WebRtcState} (h : Queues s) {j : ℕ} {task : StreamTask}
    (ht : task ≠ .lock) (hr : t.receiver = s.receiver.leave (.stream j))
    (hstreams : t.streams = s.streams) (hd : t.disconnect = s.disconnect) :
  Queues (t.setTask j task)
  := by
  have hqueued : ∀ p, t.Queued p ↔ s.Queued p := by
    intro p
    cases p with
    | disconnectHandler => rw [Queued, Queued, hd]
    | stream j' => rw [Queued, Queued, hstreams]
    | _ => rfl
  refine Queues.leave (t := t.setTask j task) h (.stream j) hr ?_
  intro p
  rw [queued_setTask, hqueued p]
  constructor
  · rintro (⟨-, rfl⟩ | hp)
    · cases ht rfl
    · exact hp
  · apply Or.inr

theorem Queues.endStream {s : WebRtcState} (h : Queues s) (j : ℕ) {task : StreamTask}
    (ht : task ≠ .lock) :
  Queues (s.endStream j task)
  := h.leaveStream ht rfl rfl rfl

theorem Queues.endSend {s : WebRtcState} (h : Queues s) :
  Queues s.endSend
  := by
  apply h.leave .sendHandler rfl
  intro p
  cases p <;> simp [WebRtcState.endSend, release, Queued]

theorem Queues.endDisconnect {s : WebRtcState} (h : Queues s) :
  Queues s.endDisconnect
  := by
  apply h.leave .disconnectHandler rfl
  intro p
  cases p <;> simp [WebRtcState.endDisconnect, release, Queued]

theorem Queues.fail {s : WebRtcState} (h : Queues s) (err : BoxError) :
  Queues (s.fail err)
  := by
  apply h.leave .disconnectHandler rfl
  intro p
  cases p <;> simp [WebRtcState.fail, Queued]

/-- The invariant of the lock.  The handler of the command to disconnect has no more to do with the
sink once the token is cancelled, and with nothing once the run has ended. -/
structure LockInv (s : WebRtcState) : Prop where
  queues : Queues s
  cancelled : s.cancelled = true → ∀ next sender receiver command,
    s.disconnect ≠ .zip next sender receiver command
  outcome : s.outcome ≠ none → s.disconnect = .ended

/-- The run has not ended when the handler has not. -/
theorem LockInv.outcome_eq_none {s : WebRtcState} (h : LockInv s) {d : DisconnectHandler}
    (hd : s.disconnect = d) (hne : d ≠ .ended) :
  s.outcome = none
  := by
  by_contra ho
  exact hne (hd.symm.trans (h.outcome ho))

theorem LockInv.init :
  LockInv init
  := by
  refine ⟨?_, nofun, ?_⟩
  · intro p
    cases p <;> simp [WebRtcState.init, Mutex.new, Queued]
  · intro h
    cases h rfl

/-- The handler has ended. -/
theorem LockInv.of_ended {t : WebRtcState} (h : Queues t) (hd : t.disconnect = .ended) :
  LockInv t
  := by
  refine ⟨h, ?_, fun _ => hd⟩
  intro _ next sender receiver command
  rw [hd]
  exact nofun

/-- An event keeps the invariant of the lock. -/
theorem LockInv.step {s t : WebRtcState} {e : WebRtcEvent} (h : LockInv s)
    (hfresh : s.streams s.count = .dropped) (ho : e.ofRun = true → s.outcome = none)
    (hs : Step s e t) :
  LockInv t
  := by
  have hrun : ∀ {P : Prop}, e.ofRun = true → s.outcome ≠ none → P := by
    intro P he hn
    cases hn (ho he)
  have hzip : ∀ {P : Prop} {next : ℕ} {sender receiver command : Bool},
      s.disconnect = .zip next sender receiver command → s.cancelled = true → P := by
    intro P next sender receiver command hz hc
    cases h.cancelled hc next sender receiver command hz
  cases hs with
  | dropSource hsource =>
      refine ⟨?_, h.cancelled, h.outcome⟩
      apply h.queues.leave .source rfl
      intro p
      cases p <;> simp [release, Queued]
  | obtain method hsource =>
      refine ⟨?_, h.cancelled, h.outcome⟩
      have hcount : Queues { s with
          count := s.count + 1
          oneshots := fun c =>
            if method.task.oneshot = some c then (s.oneshots c).clone (.stream s.count)
            else s.oneshots c } :=
        h.queues.congr rfl rfl Iff.rfl
      apply hcount.setTask
      · change s.streams s.count ≠ .lock
        simp [hfresh]
      · cases method <;> simp [SourceMethod.task]
  | drop j hj => exact ⟨h.queues.endStream j (by simp), h.cancelled, h.outcome⟩
  | loopEnd hl => exact ⟨h.queues.congr rfl rfl Iff.rfl, h.cancelled, hrun rfl⟩
  | loopFail err hl => exact LockInv.of_ended (h.queues.fail err) rfl
  | forwardFail next message hz hc => exact LockInv.of_ended (h.queues.fail _) rfl
  | sendEnd next sender hz hle he => exact ⟨h.queues.endSend, h.cancelled, hrun rfl⟩
  | cancelSend hz hc => exact ⟨h.queues.endSend, h.cancelled, hrun rfl⟩
  | subscribe next sender receiver command hn hz =>
      refine ⟨h.queues.congr rfl rfl ?_, fun hc => hzip hz hc, hrun rfl⟩
      simp [hz]
  | takeDisconnect i next sender receiver hi hz hget =>
      refine ⟨h.queues.congr rfl rfl ?_, fun hc => hzip hz hc, hrun rfl⟩
      simp [hz]
  | skipDisconnect next sender receiver command hz hget hn =>
      refine ⟨h.queues.congr rfl rfl ?_, fun hc => hzip hz hc, hrun rfl⟩
      simp [hz]
  | disconnectSender next receiver command hz hs =>
      refine ⟨h.queues.congr rfl rfl ?_, fun hc => hzip hz hc, hrun rfl⟩
      simp [hz]
  | disconnectReceiver next sender command hz hs =>
      refine ⟨h.queues.congr rfl rfl ?_, fun hc => hzip hz hc, hrun rfl⟩
      simp [hz]
  | disconnectEnd i next sender receiver hi hz hle he =>
      exact LockInv.of_ended h.queues.endDisconnect rfl
  | disconnect next hz =>
      refine ⟨h.queues.congr rfl rfl ?_, by simp, hrun rfl⟩
      simp [hz]
  | lock hd =>
      refine ⟨?_, by simp, hrun rfl⟩
      apply h.queues.lock .disconnectHandler rfl
      intro p
      cases p <;> simp [Queued]
  | close hd hh =>
      exact LockInv.of_ended (h.queues.endDisconnect.congr rfl rfl Iff.rfl) rfl
  | finish connected hsend hd hl => exact ⟨h.queues.congr rfl rfl Iff.rfl, h.cancelled, fun _ => hd⟩
  | pollSocket j ht hs =>
      refine ⟨h.queues.setTask ?_ (by simp), h.cancelled, h.outcome⟩
      simp [ht]
  | pollReceiver j ht hs =>
      refine ⟨?_, h.cancelled, h.outcome⟩
      apply h.queues.lock (.stream j) rfl
      intro p
      have hq : WebRtcState.Queued { s with receiver := s.receiver.lock (.stream j) } p ↔
        s.Queued p := by cases p <;> rfl
      rw [queued_setTask, hq, or_comm]
      by_cases hp : p = .stream j <;> simp [hp]
  | receive j message incoming ht hi hh =>
      exact ⟨h.queues.leaveStream (by simp) rfl rfl rfl, h.cancelled, h.outcome⟩
  | receiveEnd j ht hh hi hc => exact ⟨h.queues.endStream j (by simp), h.cancelled, h.outcome⟩
  | cancelReceive j ht hh hc => exact ⟨h.queues.endStream j (by simp), h.cancelled, h.outcome⟩
  | _ => exact ⟨h.queues.congr rfl rfl Iff.rfl, h.cancelled, h.outcome⟩

/-- The invariant of the lock holds of every state reached. -/
theorem LockInv.of_run {tr : List WebRtcEvent} {s : WebRtcState}
    (h : machine.run WebRtcState.init tr = some s) :
  LockInv s
  := by
  have hinv : OneshotInv s ∧ LockInv s := by
    apply machine.run_invariant (P := fun s => OneshotInv s ∧ LockInv s)
      ⟨OneshotInv.init, LockInv.init⟩ _ h
    rintro s e t ⟨hone, hlock⟩ ht
    obtain ⟨hp, ho, hstep⟩ := step_of_machine ht
    exact ⟨hone.step hp hstep, hlock.step (hone.fresh _ (Nat.le_refl _)) ho hstep⟩
  exact hinv.2

/-! ### No deadlock -/

/-- The handler has taken a command to disconnect: it waits for the sender and the receiver, or it
has cancelled the token, unless the run has ended before that. -/
def Disconnecting (s : WebRtcState) : Prop :=
  (∃ next sender receiver, s.disconnect = .zip next sender receiver true) ∨
    ((∀ next sender receiver command, s.disconnect ≠ .zip next sender receiver command) ∧
      (s.cancelled = true ∨ ∃ connected, s.messageLoop = .ended connected))

/-- The handler goes on to disconnect when something else happens. -/
theorem Disconnecting.congr {s t : WebRtcState} (h : Disconnecting s)
    (hd : t.disconnect = s.disconnect) (hc : t.cancelled = s.cancelled)
    (hl : t.messageLoop = s.messageLoop ∨ ∃ connected, t.messageLoop = .ended connected) :
  Disconnecting t
  := by
  rcases h with ⟨next, sender, receiver, hz⟩ | ⟨hz, hrest⟩
  · left
    use next, sender, receiver
    rw [hd, hz]
  · right
    rw [hd, hc]
    refine ⟨hz, ?_⟩
    rcases hrest with hcancel | hended
    · exact Or.inl hcancel
    · rcases hl with hl | hl
      · rw [hl]
        exact Or.inr hended
      · exact Or.inr hl

/-- The handler of the command to connect has ended when it waits no more. -/
theorem Disconnecting.congr_connect {s t : WebRtcState} (h : Disconnecting s)
    (hd : t.disconnect = s.disconnect) (hc : t.cancelled = s.cancelled)
    (hl : ∀ connected, s.messageLoop ≠ .ended connected) :
  Disconnecting t
  := by
  rcases h with ⟨next, sender, receiver, hz⟩ | ⟨hz, hcancel | ⟨connected, hended⟩⟩
  · left
    use next, sender, receiver
    rw [hd, hz]
  · right
    rw [hd, hc]
    exact ⟨hz, Or.inl hcancel⟩
  · cases hl connected hended

theorem Disconnecting.of_zip {s : WebRtcState} (h : Disconnecting s) {next : ℕ}
    {sender receiver command : Bool} (hz : s.disconnect = .zip next sender receiver command) :
  command = true
  := by
  rcases h with ⟨next', sender', receiver', hz'⟩ | ⟨hnot, -⟩
  · rw [hz] at hz'
    cases hz'
    rfl
  · cases hnot _ _ _ _ hz

theorem Disconnecting.of_not_zip {s : WebRtcState} (h : Disconnecting s)
    (hz : ∀ next sender receiver command,
      s.disconnect ≠ .zip next sender receiver command) :
  s.cancelled = true ∨ ∃ connected, s.messageLoop = .ended connected
  := by
  rcases h with ⟨next, sender, receiver, hz'⟩ | ⟨-, hrest⟩
  · cases hz _ _ _ _ hz'
  · exact hrest

/-- The handler has ended. -/
theorem Disconnecting.of_ended {t : WebRtcState} (hd : t.disconnect = .ended)
    (h : t.cancelled = true ∨ ∃ connected, t.messageLoop = .ended connected) :
  Disconnecting t
  := by
  right
  rw [hd]
  exact ⟨fun _ _ _ _ => nofun, h⟩

/-- The handler goes on to disconnect along every event. -/
theorem Disconnecting.step {s t : WebRtcState} {e : WebRtcEvent} (h : Disconnecting s)
    (hs : Step s e t) :
  Disconnecting t
  := by
  cases hs with
  | loopEnd hl => exact h.congr rfl rfl (Or.inr ⟨_, rfl⟩)
  | loopFail err hl => exact Disconnecting.of_ended rfl (Or.inr ⟨_, rfl⟩)
  | forwardFail next message hz hc => exact Disconnecting.of_ended rfl (Or.inr ⟨_, rfl⟩)
  | subscribe next sender receiver command hn hz =>
      obtain rfl := h.of_zip hz
      exact Or.inl ⟨_, _, _, rfl⟩
  | takeDisconnect i next sender receiver hi hz hget => exact Or.inl ⟨_, _, _, rfl⟩
  | skipDisconnect next sender receiver command hz hget hn => cases h.of_zip hz
  | disconnectEnd i next sender receiver hi hz hle he => cases h.of_zip hz
  | disconnectSender next receiver command hz hs =>
      obtain rfl := h.of_zip hz
      exact Or.inl ⟨_, _, _, rfl⟩
  | disconnectReceiver next sender command hz hs =>
      obtain rfl := h.of_zip hz
      exact Or.inl ⟨_, _, _, rfl⟩
  | disconnect next hz => exact Or.inr ⟨by simp, Or.inl rfl⟩
  | lock hd => exact Or.inr ⟨by simp, h.of_not_zip (by simp [hd])⟩
  | close hd hh => exact Disconnecting.of_ended rfl (h.of_not_zip (by simp [hd]))
  | takeConnect i next roomUrl hi hl hget =>
      refine h.congr_connect rfl rfl ?_
      simp [hl]
  | skipConnect next command hl hget hn =>
      refine h.congr_connect rfl rfl ?_
      simp [hl]
  | connectEnd i next hi hl hle he => exact h.congr rfl rfl (Or.inr ⟨_, rfl⟩)
  | giveAway c hl hne =>
      refine h.congr_connect rfl rfl ?_
      simp [hl]
  | _ => exact h.congr rfl rfl (Or.inl rfl)

/-- No one has panicked once the driver has connected. -/
theorem OneshotInv.not_panicked {s : WebRtcState} (h : OneshotInv s)
    (hl : s.messageLoop.connected = true) :
  s.panicked = none
  := by
  by_contra hn
  rcases h.panicked hn with hended | ⟨c, hsend, -⟩
  · rw [hended] at hl
    cases hl
  · rw [hsend] at hl
    cases hl

/-- The handler does not wait for the sender and the receiver in a quiescent state, once it has
taken the command and the driver has connected. -/
theorem OneshotInv.not_zip {s : WebRtcState} (h : OneshotInv s) (hp : s.panicked = none)
    (ho : s.outcome = none) (hl : s.messageLoop.connected = true)
    (hq : machine.Quiescent internalRun s) (next : ℕ) (sender receiver : Bool) :
  s.disconnect ≠ .zip next sender receiver true
  := by
  intro hd
  cases sender with
  | false =>
      have hstuck := act_of_quiescent hq hp ho .pollDisconnectSender ⟨trivial, rfl⟩
      rw [act, hd] at hstuck
      simp only [recv_of_sent (h.given.sent hl _)] at hstuck
      cases hstuck
  | true =>
      cases receiver with
      | false =>
          have hstuck := act_of_quiescent hq hp ho .pollDisconnectReceiver ⟨trivial, rfl⟩
          rw [act, hd] at hstuck
          simp only [recv_of_sent (h.given.sent hl _)] at hstuck
          cases hstuck
      | true =>
          have hstuck := act_of_quiescent hq hp ho .disconnect ⟨trivial, rfl⟩
          rw [act, hd] at hstuck
          cases hstuck

/-- No one is in the queue of the lock in a quiescent state, once the token is cancelled or the
messages have come to their end: whoever holds the lock lets it go. -/
theorem LockInv.queue_eq_nil {s : WebRtcState} (h : LockInv s) (hp : s.panicked = none)
    (hc : s.cancelled = true ∨ s.messageLoop = .ended true) (hq : machine.Quiescent internal s)
    (p : Party) :
  p ∉ s.receiver.queue
  := by
  intro hmem
  obtain ⟨q, hholder, hq'⟩ := Mutex.exists_holder hmem
  have hqueued := (h.queues q).mp hq'
  cases q with
  | source => exact hqueued
  | sendHandler => exact hqueued
  | disconnectHandler =>
      have ho : s.outcome = none := h.outcome_eq_none hqueued (by simp)
      have hclose : s.disconnect = .lock ∧ s.receiver.holder = some .disconnectHandler :=
        ⟨hqueued, hholder⟩
      have hstuck := act_of_quiescent (quiescent_run hq) hp ho .close ⟨trivial, rfl⟩
      rw [act, if_pos hclose] at hstuck
      cases hstuck
  | stream j =>
      have ht : s.streams j = .lock := hqueued
      rcases hc with hc | hl
      · have hcancel : s.streams j = .lock ∧ s.receiver.holder = some (.stream j) ∧
          s.cancelled = true := ⟨ht, hholder, hc⟩
        have hstuck := act_of_quiescent_stream hq hp (.cancelReceive j) trivial rfl
        rw [act, if_pos hcancel] at hstuck
        cases hstuck
      · cases hi : s.incoming with
        | nil =>
            have hend : s.streams j = .lock ∧ s.receiver.holder = some (.stream j) ∧
              s.incoming = [] ∧ (s.receiverClosed = true ∨ s.messageLoop = .ended true) :=
              ⟨ht, hholder, hi, Or.inr hl⟩
            have hstuck := act_of_quiescent_stream hq hp (.receiveEnd j) trivial rfl
            rw [act, if_pos hend] at hstuck
            cases hstuck
        | cons message incoming =>
            have hstuck := act_of_quiescent_stream hq hp (.receive j) trivial rfl
            rw [act, ht, hi] at hstuck
            simp only [if_pos hholder] at hstuck
            cases hstuck

/-- In a quiescent state the handler that has taken a command waits for the sender and the receiver
no more, and the messages have come to their end. -/
theorem Disconnecting.of_quiescent {s : WebRtcState} (h : Disconnecting s) (hone : OneshotInv s)
    (hlock : LockInv s) (hl : s.messageLoop.connected = true)
    (hq : machine.Quiescent internal s) :
  (∀ next sender receiver command, s.disconnect ≠ .zip next sender receiver command) ∧
    (s.cancelled = true ∨ s.messageLoop = .ended true)
  := by
  rcases h with ⟨next, sender, receiver, hz⟩ | ⟨hnot, hrest⟩
  · have ho : s.outcome = none := hlock.outcome_eq_none hz (by simp)
    cases hone.not_zip (hone.not_panicked hl) ho hl (quiescent_run hq) next sender receiver hz
  · refine ⟨hnot, ?_⟩
    rcases hrest with hc | ⟨connected, hended⟩
    · exact Or.inl hc
    · rw [hended] at hl
      obtain rfl : connected = true := hl
      exact Or.inr hended

/-- Disconnecting does not deadlock with receiving.  When the handler of the command to disconnect
has taken a command, and the driver has connected, whatever streams were obtained before or after
that and whatever messages came in, then in every quiescent state reached the handler has ended,
and so has every stream of messages that has not been dropped. -/
theorem disconnect_no_deadlock {tr tr' : List WebRtcEvent} {s t : WebRtcState}
    {next : ℕ} {sender receiver : Bool} (h : machine.run WebRtcState.init tr = some s)
    (hd : s.disconnect = .zip next sender receiver true) (h' : machine.run s tr' = some t)
    (hl : t.messageLoop.connected = true) (hq : machine.Quiescent internal t) :
  t.disconnect = .ended ∧ ∀ j, t.streams j ≠ .receiver ∧ t.streams j ≠ .lock
  := by
  have ht : machine.run WebRtcState.init (tr ++ tr') = some t := by
    rw [Machine.run_append, h]
    exact h'
  have hone : OneshotInv t := OneshotInv.of_run ht
  have hlock : LockInv t := LockInv.of_run ht
  have hp := hone.not_panicked hl
  have hdisconnecting : Disconnecting t := by
    apply machine.run_invariant (P := Disconnecting) (Or.inl ⟨next, sender, receiver, hd⟩) _ h'
    intro u e v hu hv
    apply hu.step (step_of_machine hv).2.2
  obtain ⟨hnot, hc⟩ := hdisconnecting.of_quiescent hone hlock hl hq
  have hempty := hlock.queue_eq_nil hp hc hq
  refine ⟨?_, ?_⟩
  · cases hdisconnect : t.disconnect with
    | zip next sender receiver command => cases hnot next sender receiver command hdisconnect
    | disconnected =>
        have ho : t.outcome = none := hlock.outcome_eq_none hdisconnect (by simp)
        have hstuck := act_of_quiescent (quiescent_run hq) hp ho .lock ⟨trivial, rfl⟩
        rw [act, hdisconnect] at hstuck
        cases hstuck
    | lock => cases hempty .disconnectHandler ((hlock.queues .disconnectHandler).mpr hdisconnect)
    | ended => rfl
  · intro j
    constructor
    · intro hj
      have hstuck := act_of_quiescent_stream hq hp (.poll j) trivial rfl
      rw [act, hj] at hstuck
      simp only [recv_of_sent (hone.given.sent hl _)] at hstuck
      cases hstuck
    · intro hj
      exact hempty (.stream j) ((hlock.queues (.stream j)).mpr hj)

/-- Of two streams of messages, one is obtained before the driver connects and the other one after
that, and a message comes in which no one has received when the token is cancelled. -/
theorem disconnect_two_streams :
  ∃ s t, machine.run WebRtcState.init
      [.obtain .receive, .sink (.connect "room"), .pollSend, .subscribe, .pollConnect, .giveAway,
        .giveAway, .giveAway, .obtain .receive, .poll 1, .poll 0, .sink .disconnect,
        .pollDisconnect] = some s ∧
    machine.run s
      [.pollDisconnectSender, .pollDisconnectReceiver, .disconnect, .lock,
        .message (⟨0⟩, [1]), .cancelReceive 1, .cancelReceive 0, .close, .cancelSend] = some t ∧
    t.disconnect = .ended ∧ ∀ j, t.streams j ≠ .receiver ∧ t.streams j ≠ .lock
  := by
  refine ⟨_, _, rfl, rfl, ?_⟩
  refine @disconnect_no_deadlock
    [.obtain .receive, .sink (.connect "room"), .pollSend, .subscribe, .pollConnect, .giveAway,
      .giveAway, .giveAway, .obtain .receive, .poll 1, .poll 0, .sink .disconnect, .pollDisconnect]
    [.pollDisconnectSender, .pollDisconnectReceiver, .disconnect, .lock,
      .message (⟨0⟩, [1]), .cancelReceive 1, .cancelReceive 0, .close, .cancelSend]
    _ _ _ _ _ rfl rfl rfl rfl ?_
  intro e he
  cases e with
  | poll j => rcases j with _ | _ | j <;> rfl
  | receive j => rcases j with _ | _ | j <;> rfl
  | receiveEnd j => rcases j with _ | _ | j <;> rfl
  | cancelReceive j => rcases j with _ | _ | j <;> rfl
  | _ => first | rfl | cases he

end WebRtcState

end WebRtc

end Cyclers
