import Cyclers.WebRtc.Send

/-!
# The end of the driver

The three futures of the driver are joined: the first error ends them all, and the run returns when
all three have ended.  The handlers end at the end of the sink, or when the driver disconnects, and
the loop of messages ends by itself.  Only the loop of messages makes the run fail, and a message
that is sent when the driver has disconnected or the loop has ended.
-/

open Async

namespace Cyclers

namespace WebRtc

namespace WebRtcState

/-- What the outcome of the run tells of the events so far. -/
structure OutcomeInv (tr : List WebRtcEvent) (s : WebRtcState) : Prop where
  failed : ∀ err, s.outcome = some (.error err) → .loopEnd (.error err) ∈ tr ∨
    (err = "send failed because receiver is gone" ∧
      (s.cancelled = true ∨ .loopEnd (.ok ()) ∈ tr))
  closed : s.outcome = none → s.messageLoop = .ended true → .loopEnd (.ok ()) ∈ tr
  loop : ∀ err, .loopEnd (.error err) ∈ tr → s.outcome = some (.error err)
  ended : s.outcome ≠ none → ∃ connected, s.messageLoop = .ended connected
  returned : s.outcome = some (.ok ()) → s.cancelled = true ∨ s.sinkEnded = true

theorem OutcomeInv.init :
  OutcomeInv [] init
  := ⟨nofun, nofun, nofun, fun h => absurd rfl h, nofun⟩

/-- An event other than the end of the loop of messages leaves the outcome as it is. -/
theorem OutcomeInv.congr {tr : List WebRtcEvent} {s t : WebRtcState} {e : WebRtcEvent}
    (h : OutcomeInv tr s) (he : ∀ err, e ≠ .loopEnd (.error err)) (ho : t.outcome = s.outcome)
    (hl : t.messageLoop = s.messageLoop ∨ (s.outcome = none ∧ t.messageLoop ≠ .ended true))
    (hc : s.cancelled = true → t.cancelled = true)
    (hended : s.sinkEnded = true → t.sinkEnded = true) :
  OutcomeInv (tr ++ [e]) t
  := by
  refine ⟨?_, ?_, ?_, ?_, ?_⟩
  · intro err herr
    rw [ho] at herr
    rcases h.failed err herr with hmem | ⟨hmessage, hgone⟩
    · exact Or.inl (List.mem_append_left _ hmem)
    · exact Or.inr ⟨hmessage, hgone.imp hc (List.mem_append_left _)⟩
  · intro hnone hended
    rcases hl with hl | ⟨-, hne⟩
    · apply List.mem_append_left
      apply h.closed (ho.symm.trans hnone) (hl.symm.trans hended)
    · cases hne hended
  · intro err hmem
    rw [ho]
    rcases List.mem_append.mp hmem with hmem | hmem
    · apply h.loop err hmem
    · cases he err (List.mem_singleton.mp hmem).symm
  · rw [ho]
    intro hsome
    obtain ⟨connected, hconnected⟩ := h.ended hsome
    rcases hl with hl | ⟨hnone, -⟩
    · exact ⟨connected, hl.trans hconnected⟩
    · cases hsome hnone
  · rw [ho]
    intro hok
    apply (h.returned hok).imp hc hended

/-- Each event keeps what the outcome tells. -/
theorem OutcomeInv.step {tr : List WebRtcEvent} {s t : WebRtcState} {e : WebRtcEvent}
    (h : OutcomeInv tr s) (hhandlers : HandlersInv s) (ho : e.ofRun = true → s.outcome = none)
    (hs : Step s e t) :
  OutcomeInv (tr ++ [e]) t
  := by
  have hnot : ∀ err, s.outcome = none → .loopEnd (.error err) ∉ tr := by
    intro err hnone hmem
    rw [h.loop err hmem] at hnone
    cases hnone
  cases hs with
  | loopEnd hl =>
      refine ⟨?_, fun _ _ => by simp, ?_, ?_, ?_⟩
      · intro err herr
        cases (ho rfl).symm.trans herr
      · intro err hmem
        rcases List.mem_append.mp hmem with hmem | hmem
        · cases hnot err (ho rfl) hmem
        · cases List.mem_singleton.mp hmem
      · intro hsome
        cases hsome (ho rfl)
      · intro hok
        cases (ho rfl).symm.trans hok
  | loopFail err hl =>
      refine ⟨?_, nofun, ?_, fun _ => ⟨_, rfl⟩, ?_⟩
      · intro err' herr
        cases herr
        left
        simp
      · intro err' hmem
        rcases List.mem_append.mp hmem with hmem | hmem
        · cases hnot err' (ho rfl) hmem
        · cases List.mem_singleton.mp hmem
          rfl
      · intro hok
        cases hok
  | forwardFail next message hz hc =>
      refine ⟨?_, nofun, ?_, fun _ => ⟨_, rfl⟩, ?_⟩
      · intro err herr
        cases herr
        refine Or.inr ⟨rfl, ?_⟩
        rcases hc with hc | hl
        · exact Or.inl (hhandlers.oneshots.cancelled.trans hc)
        · exact Or.inr (List.mem_append_left _ (h.closed (ho rfl) hl))
      · intro err hmem
        rcases List.mem_append.mp hmem with hmem | hmem
        · cases hnot err (ho rfl) hmem
        · cases List.mem_singleton.mp hmem
      · intro hok
        cases hok
  | finish connected hsend hd hl =>
      refine ⟨?_, nofun, ?_, fun _ => ⟨connected, hl⟩, ?_⟩
      · intro err herr
        cases herr
      · intro err hmem
        rcases List.mem_append.mp hmem with hmem | hmem
        · cases hnot err (ho rfl) hmem
        · cases List.mem_singleton.mp hmem
      · intro _
        rcases hhandlers.disconnect.ended hd with hc | ⟨err, herr⟩ | ⟨hended, -⟩
        · exact Or.inl hc
        · rw [ho rfl] at herr
          cases herr
        · exact Or.inr hended
  | sinkEnd hopen => exact h.congr (by simp) rfl (Or.inl rfl) id fun _ => rfl
  | takeConnect i next roomUrl hi hl hget =>
      exact h.congr (by simp) rfl (Or.inr ⟨ho rfl, by simp⟩) id id
  | skipConnect next command hl hget hn =>
      exact h.congr (by simp) rfl (Or.inr ⟨ho rfl, by simp⟩) id id
  | connectEnd i next hi hl hle he =>
      refine h.congr (by simp) rfl (Or.inr ⟨ho rfl, ?_⟩) id id
      simp [endConnect, hl, MessageLoop.connected]
  | giveAway c hl hne =>
      refine h.congr (by simp) rfl (Or.inr ⟨ho rfl, ?_⟩) id id
      cases c <;> simp [Oneshots.next]
  | disconnect next hz => exact h.congr (by simp) rfl (Or.inl rfl) (fun _ => rfl) id
  | withoutSending e c hpolled hdropped =>
      refine h.congr ?_ rfl (Or.inl rfl) id id
      intro err he
      rw [he] at hpolled
      cases hpolled
  | _ => exact h.congr (by simp) rfl (Or.inl rfl) id id

theorem OutcomeInv.of_run {tr : List WebRtcEvent} {s : WebRtcState}
    (h : machine.run WebRtcState.init tr = some s) :
  OutcomeInv tr s
  := by
  apply machine.run_induction (P := OutcomeInv) OutcomeInv.init _ tr s h
  intro tr s e t hr hs ht
  obtain ⟨-, ho, hstep⟩ := step_of_machine ht
  apply hs.step (HandlersInv.of_run hr) ho hstep

/-! ### What the run waits for -/

/-- In a quiescent state the handler of the command to connect has come to the end of what the sink
has yielded, or it has given everything away. -/
theorem HandlersInv.messageLoop_of_quiescent {s : WebRtcState} (h : HandlersInv s)
    (hp : s.panicked = none) (ho : s.outcome = none) (hq : machine.Quiescent internalRun s) :
  (s.sinkEnded = false ∧ ∀ roomUrl, .connect roomUrl ∉ s.sink) ∨ s.messageLoop = .running ∨
    ∃ connected, s.messageLoop = .ended connected
  := by
  cases hl : s.messageLoop with
  | next next =>
      obtain ⟨i, hi⟩ := h.subscribing.of_quiescent hp hq
      have hle := getElem?_of_quiescent hp ho hq h.subscribing hl
      obtain ⟨-, hn⟩ := h.connect.next next hl
      rw [List.take_of_length_le hle] at hn
      refine Or.inl ⟨?_, hn⟩
      by_contra hended
      have hstuck := act_of_quiescent hq hp ho .pollConnect ⟨trivial, rfl⟩
      rw [act, hi, hl] at hstuck
      simp only [nextCommand_eq_end.mpr ⟨hle, (Bool.not_eq_false _).mp hended⟩] at hstuck
      cases hstuck
  | send c =>
      have hstuck := act_of_quiescent hq hp ho .giveAway ⟨trivial, rfl⟩
      rw [act, hl] at hstuck
      simp only at hstuck
      split at hstuck <;> cases hstuck
  | running => exact Or.inr (Or.inl rfl)
  | ended connected => exact Or.inr (Or.inr ⟨connected, rfl⟩)

/-- In a quiescent state the handler of the commands to send has ended, if the sink has ended or the
token is cancelled, once the handler of the command to connect has ended. -/
theorem HandlersInv.send_eq_ended {s : WebRtcState} (h : HandlersInv s) (hp : s.panicked = none)
    (ho : s.outcome = none) (hq : machine.Quiescent internalRun s) {connected : Bool}
    (hl : s.messageLoop = .ended connected) (he : s.sinkEnded = true ∨ s.cancelled = true) :
  s.send = .ended
  := by
  cases hz : s.send with
  | ended => rfl
  | zip next sender message =>
      cases connected with
      | false =>
          -- The sender of the data channel has been dropped, and whoever polls for it panics.
          cases sender with
          | false =>
              have hdropped : (s.oneshots .channelSender).sender = .dropped := by
                rw [h.oneshots.given, hl]
                rfl
              have hstuck := act_of_quiescent hq hp ho .pollSendSender ⟨trivial, rfl⟩
              rw [act, hz] at hstuck
              simp only [recv, Oneshot.recv_eq_ready_false.mpr hdropped] at hstuck
              cases hstuck
          | true =>
              have hsent := h.oneshots.sender next message hz
              rw [h.oneshots.given, hl] at hsent
              cases hsent
      | true =>
          obtain ⟨rfl, hle⟩ := h.not_pending hp ho hq (congrArg MessageLoop.connected hl) hz
          rcases he with he | hc
          · have hstuck := act_of_quiescent hq hp ho .pollSend ⟨trivial, rfl⟩
            rw [act, hz] at hstuck
            simp only [nextCommand_eq_end.mpr ⟨hle, he⟩] at hstuck
            cases hstuck
          · have hstuck := act_of_quiescent hq hp ho .cancelSend ⟨trivial, rfl⟩
            rw [act, hz] at hstuck
            simp only [if_pos hc] at hstuck
            cases hstuck

/-- In a quiescent state the handler of the command to disconnect has ended, when the handler of the
command to connect has ended and has not connected. -/
theorem HandlersInv.disconnect_eq_ended_of_not_connected {s : WebRtcState} (h : HandlersInv s)
    (hp : s.panicked = none) (ho : s.outcome = none) (hq : machine.Quiescent internalRun s)
    (hl : s.messageLoop = .ended false) :
  s.disconnect = .ended
  := by
  have hdropped : ∀ c, (s.oneshots c).sender = .dropped := by
    intro c
    rw [h.oneshots.given, hl]
    rfl
  cases hd : s.disconnect with
  | zip next sender receiver command =>
      cases sender with
      | false =>
          have hstuck := act_of_quiescent hq hp ho .pollDisconnectSender ⟨trivial, rfl⟩
          rw [act, hd] at hstuck
          simp only [recv, Oneshot.recv_eq_ready_false.mpr (hdropped _)] at hstuck
          cases hstuck
      | true =>
          cases receiver with
          | false =>
              have hstuck := act_of_quiescent hq hp ho .pollDisconnectReceiver ⟨trivial, rfl⟩
              rw [act, hd] at hstuck
              simp only [recv, Oneshot.recv_eq_ready_false.mpr (hdropped _)] at hstuck
              cases hstuck
          | true =>
              have hconnected := h.oneshots.receiver _ _ _ hd
              rw [hl] at hconnected
              cases hconnected
  | disconnected =>
      have hstuck := act_of_quiescent hq hp ho .lock ⟨trivial, rfl⟩
      rw [act, hd] at hstuck
      cases hstuck
  | lock =>
      have hclosed := h.oneshots.closed
      rw [← h.oneshots.cancelled, h.disconnect.disconnected (Or.inr hd), hl] at hclosed
      cases hclosed rfl
  | ended => rfl

/-- In a quiescent state the handler of the command to disconnect has ended, when the driver has
connected, and the sink has ended or the handler has been given the command. -/
theorem HandlersInv.disconnect_eq_ended_of_connected {s : WebRtcState} (h : HandlersInv s)
    (hlock : LockInv s) (hp : s.panicked = none) (ho : s.outcome = none)
    (hq : machine.Quiescent internal s) (hl : s.messageLoop = .ended true)
    (he : s.sinkEnded = true ∨ .disconnect ∈ s.heard) :
  s.disconnect = .ended
  := by
  have hrun := quiescent_run hq
  have hc := congrArg MessageLoop.connected hl
  cases hd : s.disconnect with
  | zip next sender receiver command =>
      cases command with
      | true => cases h.oneshots.not_zip hp ho hc hrun next sender receiver hd
      | false =>
          obtain ⟨i, hi⟩ := h.subscribing.of_quiescent hp hrun
          obtain ⟨-, -, hn⟩ := h.disconnect.next next sender receiver hd
          have hstuck := act_of_quiescent hrun hp ho .pollDisconnect ⟨trivial, rfl⟩
          rw [act, hi, hd] at hstuck
          cases hget : s.sink[next]? with
          | some command =>
              simp only [nextCommand_eq_some.mpr hget] at hstuck
              cases command <;> cases hstuck
          | none =>
              have hle := List.getElem?_eq_none_iff.mp hget
              rw [List.take_of_length_le hle] at hn
              simp only [nextCommand_eq_end.mpr ⟨hle, he.resolve_right hn⟩] at hstuck
              cases hstuck
  | disconnected =>
      have hstuck := act_of_quiescent hrun hp ho .lock ⟨trivial, rfl⟩
      rw [act, hd] at hstuck
      cases hstuck
  | lock =>
      cases hlock.queue_eq_nil hp (Or.inr hl) hq .disconnectHandler
        ((hlock.queues .disconnectHandler).mpr hd)
  | ended => rfl

/-- In a quiescent state in which the run has not ended, it waits for the loop of messages to end,
or for the sink. -/
theorem HandlersInv.waits {s : WebRtcState} (h : HandlersInv s) (hlock : LockInv s)
    (hp : s.panicked = none) (ho : s.outcome = none) (hq : machine.Quiescent internal s) :
  s.messageLoop = .running ∨
    (s.sinkEnded = false ∧ ((∀ roomUrl, .connect roomUrl ∉ s.sink) ∨ .disconnect ∉ s.heard))
  := by
  have hrun := quiescent_run hq
  rcases h.messageLoop_of_quiescent hp ho hrun with ⟨hopen, hn⟩ | hl | ⟨connected, hl⟩
  · exact Or.inr ⟨hopen, Or.inl hn⟩
  · exact Or.inl hl
  · by_contra hcon
    rw [not_or, not_and_or, Bool.not_eq_false, not_or, not_not] at hcon
    have he : s.sinkEnded = true ∨ .disconnect ∈ s.heard := hcon.2.imp_right And.right
    have hd : s.disconnect = .ended := by
      cases connected with
      | false => exact h.disconnect_eq_ended_of_not_connected hp ho hrun hl
      | true => exact h.disconnect_eq_ended_of_connected hlock hp ho hq hl he
    have hsend : s.send = .ended := by
      apply h.send_eq_ended hp ho hrun hl
      rcases h.disconnect.ended hd with hc | ⟨err, herr⟩ | ⟨hended, -⟩
      · exact Or.inr hc
      · rw [ho] at herr
        cases herr
      · exact Or.inl hended
    have hstuck := act_of_quiescent hrun hp ho .finish ⟨trivial, rfl⟩
    rw [act, hsend, hd, hl] at hstuck
    cases hstuck

/-- How the run ends.  It fails with an error of the loop of messages exactly when the loop has
ended with that error, and with no other one but that a message was sent after the handler of the
command to disconnect had been given one, or after the loop had ended.  It returns only when the
loop of messages has ended and the sink has ended or given that handler a command to disconnect.
When no one has panicked and nothing more can happen by itself, it has ended unless the loop of
messages is running, or the sink goes on and has not yielded both a command to connect and, since
the handler subscribed to it, one to disconnect. -/
theorem run_ends {tr : List WebRtcEvent} {s : WebRtcState}
    (h : machine.run WebRtcState.init tr = some s) :
  (∀ err, .loopEnd (.error err) ∈ tr → s.outcome = some (.error err)) ∧
    (∀ err, s.outcome = some (.error err) → .loopEnd (.error err) ∈ tr ∨
      (err = "send failed because receiver is gone" ∧
        (.disconnect ∈ s.heard ∨ .loopEnd (.ok ()) ∈ tr))) ∧
    (s.outcome = some (.ok ()) → (∃ connected, s.messageLoop = .ended connected) ∧
      (s.sinkEnded = true ∨ .disconnect ∈ s.heard)) ∧
    (s.panicked = none → machine.Quiescent internal s → s.outcome = none →
      s.messageLoop = .running ∨
        (s.sinkEnded = false ∧ ((∀ roomUrl, .connect roomUrl ∉ s.sink) ∨ .disconnect ∉ s.heard)))
  := by
  have hinv := OutcomeInv.of_run h
  have hhandlers := HandlersInv.of_run h
  refine ⟨hinv.loop, ?_, ?_, ?_⟩
  · intro err herr
    apply (hinv.failed err herr).imp_right
    apply And.imp_right (Or.imp_left hhandlers.disconnect.cancelled)
  · intro hok
    refine ⟨hinv.ended ?_, ?_⟩
    · rw [hok]
      exact Option.some_ne_none _
    · exact (hinv.returned hok).symm.imp_right hhandlers.disconnect.cancelled
  · intro hp hq ho
    apply hhandlers.waits (LockInv.of_run h) hp ho hq

/-- The driver disconnects, the loop of messages ends, and the run returns.  When the handler of the
command to disconnect subscribes to the sink after it has yielded the command, the loop of messages
ends and the run does not return. -/
theorem run_ends_disconnect :
  (∃ s, machine.run WebRtcState.init
      [.sink (.connect "room"), .pollSend, .subscribe, .pollConnect, .giveAway, .giveAway,
        .giveAway, .sink .disconnect, .pollSend, .pollDisconnect, .pollDisconnectSender,
        .pollDisconnectReceiver, .disconnect, .lock, .close, .cancelSend, .loopEnd (.ok ()),
        .finish] = some s ∧
    s.outcome = some (.ok ()) ∧ (∃ connected, s.messageLoop = .ended connected) ∧
    .disconnect ∈ s.heard) ∧
  (∃ s, machine.run WebRtcState.init
      [.sink (.connect "room"), .pollSend, .sink .disconnect, .pollSend, .subscribe, .pollConnect,
        .giveAway, .giveAway, .giveAway, .pollSendSender, .pollDisconnectSender,
        .pollDisconnectReceiver, .loopEnd (.ok ())] = some s ∧
    s.outcome = none ∧ s.messageLoop = .ended true ∧ .disconnect ∈ s.sink ∧
    (s.messageLoop = .running ∨
      (s.sinkEnded = false ∧ ((∀ roomUrl, .connect roomUrl ∉ s.sink) ∨ .disconnect ∉ s.heard))))
  := by
  refine ⟨⟨_, rfl, rfl, ?_⟩, ⟨_, rfl, rfl, rfl, by decide, ?_⟩⟩
  · have hok := (@run_ends
      [.sink (.connect "room"), .pollSend, .subscribe, .pollConnect, .giveAway, .giveAway,
        .giveAway, .sink .disconnect, .pollSend, .pollDisconnect, .pollDisconnectSender,
        .pollDisconnectReceiver, .disconnect, .lock, .close, .cancelSend, .loopEnd (.ok ()),
        .finish] _ rfl).2.2.1 rfl
    exact ⟨hok.1, hok.2.resolve_left Bool.false_ne_true⟩
  · refine (@run_ends
      [.sink (.connect "room"), .pollSend, .sink .disconnect, .pollSend, .subscribe, .pollConnect,
        .giveAway, .giveAway, .giveAway, .pollSendSender, .pollDisconnectSender,
        .pollDisconnectReceiver, .loopEnd (.ok ())] _ rfl).2.2.2 rfl ?_ rfl
    intro e he
    cases e with
    | poll j => rfl
    | receive j => rfl
    | receiveEnd j => rfl
    | cancelReceive j => rfl
    | _ => first | rfl | cases he

end WebRtcState

end WebRtc

end Cyclers
