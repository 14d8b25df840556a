import Cyclers.WebRtc.Receive
import Mathlib.Data.List.TakeWhile

/-!
# Sending messages

The handler of the commands to send goes through the sink on its own, and so does the handler of the
first command to disconnect, once it has subscribed to it.  The messages are forwarded in the order
of the sink, but nothing tells the second handler how far the first one has come.
-/

open Async

namespace Cyclers

namespace WebRtc

/-- The message that a command sends, if it is a command to send. -/
def WebRtcCommand.message : WebRtcCommand → Option Message
  | .send packet peerId => some (peerId, packet)
  | _ => none

/-- The messages of the commands to send, in the order of the sink. -/
def sends (sink : List WebRtcCommand) : List Message :=
  sink.filterMap WebRtcCommand.message

/-- The commands before the first command to disconnect. -/
def beforeDisconnect (sink : List WebRtcCommand) : List WebRtcCommand :=
  sink.takeWhile fun command => command ≠ .disconnect

@[simp]
theorem sends_append (sink sink' : List WebRtcCommand) :
  sends (sink ++ sink') = sends sink ++ sends sink'
  := List.filterMap_append

/-- One more command of the sink is taken. -/
theorem sends_take_succ {sink : List WebRtcCommand} {next : ℕ} {command : WebRtcCommand}
    (h : sink[next]? = some command) :
  sends (sink.take (next + 1)) = sends (sink.take next) ++ command.message.toList
  := by
  rw [List.take_add_one, h, sends_append]
  cases hm : command.message <;> simp [sends, hm]

/-- The commands that have been taken stay the same when the sink yields one more. -/
theorem take_concat {sink : List WebRtcCommand} {next : ℕ} (h : next ≤ sink.length)
    (command : WebRtcCommand) :
  next ≤ (sink ++ [command]).length ∧ (sink ++ [command]).take next = sink.take next
  := by
  rw [List.length_append]
  exact ⟨Nat.le_add_right_of_le h, List.take_append_of_le_length h⟩

theorem sends_take_prefix (sink : List WebRtcCommand) (next : ℕ) :
  sends (sink.take next) <+: sends sink
  := by
  use sends (sink.drop next)
  rw [← sends_append, List.take_append_drop]

/-- What is not among the commands that have been taken, nor the next one, is not among those that
are taken then. -/
theorem notMem_take_succ {sink : List WebRtcCommand} {next : ℕ} {command command' : WebRtcCommand}
    (h : sink[next]? = some command) (hn : command' ∉ sink.take next) (hne : command' ≠ command) :
  command' ∉ sink.take (next + 1)
  := by
  rw [List.take_add_one, h, List.mem_append]
  rintro (hmem | hmem)
  · exact hn hmem
  · exact hne (List.mem_singleton.mp hmem)

theorem beforeDisconnect_of_notMem {sink : List WebRtcCommand} (h : .disconnect ∉ sink) :
  beforeDisconnect sink = sink
  := by
  rw [beforeDisconnect, List.takeWhile_eq_self_iff]
  intro command hc
  rw [decide_eq_true_eq]
  rintro rfl
  exact h hc

/-- The commands before the first command to disconnect. -/
theorem beforeDisconnect_append {sink : List WebRtcCommand} (h : .disconnect ∉ sink)
    (rest : List WebRtcCommand) :
  beforeDisconnect (sink ++ .disconnect :: rest) = sink
  := by
  rw [beforeDisconnect, List.takeWhile_append_of_pos]
  · simp
  · intro command hc
    rw [decide_eq_true_eq]
    rintro rfl
    exact h hc

/-- What comes after the first command to disconnect does not matter. -/
theorem beforeDisconnect_append_of_mem {sink : List WebRtcCommand} (h : .disconnect ∈ sink)
    (rest : List WebRtcCommand) :
  beforeDisconnect (sink ++ rest) = beforeDisconnect sink
  := by
  obtain ⟨before, after, rfl, hn⟩ := List.eq_append_cons_of_mem h
  rw [List.append_assoc, List.cons_append, beforeDisconnect_append hn,
    beforeDisconnect_append hn]

namespace WebRtcState

/-- The invariant of the handler of the commands to send: what has been forwarded, and the message
that the handler has, is what is sent by the commands it has taken.  It has ended because the token
is cancelled, or the run has failed, or there are no more commands. -/
structure SendInv (s : WebRtcState) : Prop where
  zip : ∀ next sender message, s.send = .zip next sender message →
    next ≤ s.sink.length ∧ s.forwarded ++ message.toList = sends (s.sink.take next)
  forwarded : s.forwarded <+: sends s.sink
  ended : s.send = .ended → s.cancelled = true ∨ (∃ err, s.outcome = some (.error err)) ∨
    (s.sinkEnded = true ∧ s.forwarded = sends s.sink)
  outcome : s.outcome ≠ none → s.send = .ended

theorem SendInv.init :
  SendInv init
  := by
  refine ⟨?_, List.nil_prefix, nofun, ?_⟩
  · rintro next sender message hz
    cases hz
    exact ⟨Nat.le_refl _, rfl⟩
  · intro h
    cases h rfl

/-- What the invariant says does not depend on the other handlers, as long as the token is not
taken back. -/
theorem SendInv.congr {s t : WebRtcState} (h : SendInv s) (hsink : t.sink = s.sink)
    (he : t.sinkEnded = s.sinkEnded) (hsend : t.send = s.send)
    (hf : t.forwarded = s.forwarded) (hc : s.cancelled = true → t.cancelled = true)
    (ho : t.outcome = s.outcome) :
  SendInv t
  := by
  refine ⟨?_, ?_, ?_, ?_⟩
  · rw [hsink, hsend, hf]
    exact h.zip
  · rw [hsink, hf]
    exact h.forwarded
  · rw [hsink, he, hsend, hf, ho]
    intro hended
    exact (h.ended hended).imp_left hc
  · rw [hsend, ho]
    exact h.outcome

/-- The handler has ended. -/
theorem SendInv.of_ended {t : WebRtcState} (hsend : t.send = .ended)
    (hf : t.forwarded <+: sends t.sink)
    (h : t.cancelled = true ∨ (∃ err, t.outcome = some (.error err)) ∨
      (t.sinkEnded = true ∧ t.forwarded = sends t.sink)) :
  SendInv t
  := by
  refine ⟨?_, hf, fun _ => h, fun _ => hsend⟩
  intro next sender message hz
  rw [hsend] at hz
  cases hz

/-- An event keeps the invariant of the handler of the commands to send. -/
theorem SendInv.step {s t : WebRtcState} {e : WebRtcEvent} (h : SendInv s)
    (ho : e.ofRun = true → s.outcome = none) (hs : Step s e t) :
  SendInv t
  := by
  have hrun : ∀ {P : Prop}, e.ofRun = true → s.outcome ≠ none → P := by
    intro P he hn
    cases hn (ho he)
  cases hs with
  | sink command hopen =>
      refine ⟨?_, ?_, ?_, h.outcome⟩
      · intro next sender message hz
        obtain ⟨hle, hforwarded⟩ := h.zip next sender message hz
        obtain ⟨hle', htake⟩ := take_concat hle command
        rw [← htake] at hforwarded
        exact ⟨hle', hforwarded⟩
      · rw [sends_append]
        exact h.forwarded.trans (List.prefix_append _ _)
      · intro hended
        rcases h.ended hended with hc | herr | ⟨hclosed, -⟩
        · exact Or.inl hc
        · exact Or.inr (Or.inl herr)
        · rw [hopen] at hclosed
          cases hclosed
  | sinkEnd hopen =>
      refine ⟨h.zip, h.forwarded, ?_, h.outcome⟩
      intro hended
      rcases h.ended hended with hc | herr | ⟨hclosed, -⟩
      · exact Or.inl hc
      · exact Or.inr (Or.inl herr)
      · rw [hopen] at hclosed
        cases hclosed
  | takeSend next sender packet peerId hz hget =>
      refine ⟨?_, h.forwarded, by simp, hrun rfl⟩
      rintro next' sender' message' hz'
      cases hz'
      obtain ⟨-, hforwarded⟩ := h.zip next sender none hz
      refine ⟨(List.getElem?_eq_some_iff.mp hget).1, ?_⟩
      rw [sends_take_succ hget, ← hforwarded]
      simp [WebRtcCommand.message]
  | skipSend next sender command hz hget hn =>
      refine ⟨?_, h.forwarded, by simp, hrun rfl⟩
      rintro next' sender' message' hz'
      cases hz'
      obtain ⟨-, hforwarded⟩ := h.zip next sender none hz
      refine ⟨(List.getElem?_eq_some_iff.mp hget).1, ?_⟩
      have hnone : command.message = none := by
        cases command with
        | send packet peerId => cases hn packet peerId rfl
        | _ => rfl
      rw [sends_take_succ hget, ← hforwarded, hnone]
      simp
  | sendEnd next sender hz hle he =>
      obtain ⟨-, hforwarded⟩ := h.zip next sender none hz
      rw [List.take_of_length_le hle] at hforwarded
      refine SendInv.of_ended rfl h.forwarded (Or.inr (Or.inr ⟨he, ?_⟩))
      exact (List.append_nil _).symm.trans hforwarded
  | sendSender next message hz hs =>
      refine ⟨?_, h.forwarded, by simp, hrun rfl⟩
      rintro next' sender' message' hz'
      cases hz'
      exact h.zip next false message hz
  | forward next message hz hc hl =>
      obtain ⟨hle, hforwarded⟩ := h.zip next true (some message) hz
      refine ⟨?_, ?_, by simp, hrun rfl⟩
      · rintro next' sender' message' hz'
        cases hz'
        refine ⟨hle, ?_⟩
        rw [← hforwarded]
        exact List.append_nil _
      · change s.forwarded ++ [message] <+: _
        rw [show s.forwarded ++ [message] = sends (s.sink.take next) from hforwarded]
        apply sends_take_prefix
  | cancelSend hz hc => exact SendInv.of_ended rfl h.forwarded (Or.inl hc)
  | loopFail err hl => exact SendInv.of_ended rfl h.forwarded (Or.inr (Or.inl ⟨err, rfl⟩))
  | forwardFail next message hz hc =>
      exact SendInv.of_ended rfl h.forwarded (Or.inr (Or.inl ⟨_, rfl⟩))
  | disconnect next hz => exact h.congr rfl rfl rfl rfl (fun _ => rfl) rfl
  | finish connected hsend hd hl =>
      refine ⟨h.zip, h.forwarded, ?_, fun _ => hsend⟩
      intro hended
      rcases h.ended hended with hc | ⟨err, herr⟩ | hrest
      · exact Or.inl hc
      · rw [ho rfl] at herr
        cases herr
      · exact Or.inr (Or.inr hrest)
  | _ => exact h.congr rfl rfl rfl rfl id rfl

/-- The invariant of the handler of the command to connect: it has passed no command to connect. -/
structure ConnectInv (s : WebRtcState) : Prop where
  next : ∀ next, s.messageLoop = .next next →
    next ≤ s.sink.length ∧ ∀ roomUrl, .connect roomUrl ∉ s.sink.take next
  unconnected : s.messageLoop = .ended false →
    s.sinkEnded = true ∧ ∀ roomUrl, .connect roomUrl ∉ s.sink

theorem ConnectInv.init :
  ConnectInv init
  := by
  refine ⟨?_, nofun⟩
  intro next hl
  cases hl
  exact ⟨Nat.le_refl _, fun _ => nofun⟩

theorem ConnectInv.congr {s t : WebRtcState} (h : ConnectInv s) (hsink : t.sink = s.sink)
    (he : s.sinkEnded = true → t.sinkEnded = true) (hl : t.messageLoop = s.messageLoop) :
  ConnectInv t
  := by
  refine ⟨?_, ?_⟩
  · rw [hsink, hl]
    exact h.next
  · rw [hsink, hl]
    intro hended
    exact (h.unconnected hended).imp_left he

/-- The handler has taken a command to connect. -/
theorem ConnectInv.of_taken {t : WebRtcState}
    (h : (∃ c, t.messageLoop = .send c) ∨ t.messageLoop.connected = true) :
  ConnectInv t
  := by
  refine ⟨?_, ?_⟩
  · intro next hl
    rw [hl] at h
    rcases h with ⟨c, h⟩ | h <;> cases h
  · intro hl
    rw [hl] at h
    rcases h with ⟨c, h⟩ | h <;> cases h

/-- An event keeps the invariant of the handler of the command to connect. -/
theorem ConnectInv.step {s t : WebRtcState} {e : WebRtcEvent} (h : ConnectInv s)
    (hone : OneshotInv s) (hs : Step s e t) :
  ConnectInv t
  := by
  cases hs with
  | sink command hopen =>
      refine ⟨?_, ?_⟩
      · intro next hl
        obtain ⟨hle, hn⟩ := h.next next hl
        obtain ⟨hle', htake⟩ := take_concat hle command
        rw [← htake] at hn
        exact ⟨hle', hn⟩
      · intro hl
        obtain ⟨hclosed, -⟩ := h.unconnected hl
        rw [hopen] at hclosed
        cases hclosed
  | sinkEnd hopen => exact h.congr rfl (fun _ => rfl) rfl
  | loopEnd hl => exact ConnectInv.of_taken (Or.inr (congrArg MessageLoop.connected hl))
  | loopFail err hl => exact ConnectInv.of_taken (Or.inr (congrArg MessageLoop.connected hl))
  | forwardFail next message hz hc => exact ConnectInv.of_taken (Or.inr (hone.connected_of_fail hc))
  | takeConnect i next roomUrl hi hl hget => exact ConnectInv.of_taken (Or.inl ⟨_, rfl⟩)
  | skipConnect next command hl hget hn =>
      refine ⟨?_, by simp⟩
      intro next' hl'
      cases hl'
      obtain ⟨-, hnot⟩ := h.next next hl
      refine ⟨(List.getElem?_eq_some_iff.mp hget).1, ?_⟩
      intro roomUrl
      apply notMem_take_succ hget (hnot roomUrl) (hn roomUrl).symm
  | connectEnd i next hi hl hle he =>
      obtain ⟨-, hnot⟩ := h.next next hl
      rw [List.take_of_length_le hle] at hnot
      refine ⟨?_, fun _ => ⟨he, hnot⟩⟩
      intro next' hl'
      cases hl'
  | giveAway c hl hne =>
      apply ConnectInv.of_taken
      cases c with
      | channelReceiver => exact Or.inr rfl
      | _ => exact Or.inl ⟨_, rfl⟩
  | _ => exact h.congr rfl id rfl

/-- The commands that the sink has yielded since the handler of the command to disconnect subscribed
to it. -/
def heard (s : WebRtcState) : List WebRtcCommand :=
  Async.heard s.sink s.subscribed

/-- Until the handler of the command to disconnect has subscribed to the sink, it waits, nothing
has been done to connect, and the run has not ended. -/
def Subscribing (s : WebRtcState) : Prop :=
  s.subscribed = none →
    (∃ next sender receiver command, s.disconnect = .zip next sender receiver command) ∧
      (∃ next, s.messageLoop = .next next) ∧ s.outcome = none

theorem Subscribing.init :
  Subscribing init
  := fun _ => ⟨⟨0, false, false, false, rfl⟩, ⟨0, rfl⟩, rfl⟩

/-- An event of a connected driver is not one before the handler has subscribed. -/
theorem Subscribing.not_connected {s : WebRtcState} (h : Subscribing s)
    (hl : s.messageLoop.connected = true) :
  s.subscribed ≠ none
  := by
  intro hn
  obtain ⟨-, ⟨next, hnext⟩, -⟩ := h hn
  rw [hnext] at hl
  cases hl

theorem Subscribing.step {s t : WebRtcState} {e : WebRtcEvent} (h : Subscribing s)
    (hone : OneshotInv s) (hs : Step s e t) :
  Subscribing t
  := by
  have hnext : ∀ {l : MessageLoop}, s.messageLoop = l → (∀ next, l ≠ .next next) →
      s.subscribed ≠ none := by
    intro l hl hne hn
    obtain ⟨-, ⟨next, hnext⟩, -⟩ := h hn
    exact hne next (hl.symm.trans hnext)
  have hzip : ∀ {d : DisconnectHandler}, s.disconnect = d →
      (∀ next sender receiver command, d ≠ .zip next sender receiver command) →
      s.subscribed ≠ none := by
    intro d hd hne hn
    obtain ⟨⟨next, sender, receiver, command, hz⟩, -⟩ := h hn
    exact hne next sender receiver command (hd.symm.trans hz)
  cases hs with
  | subscribe next sender receiver command hn hz => exact nofun
  | loopEnd hl => exact fun hn => absurd hn (hnext hl (by simp))
  | loopFail err hl => exact fun hn => absurd hn (hnext hl (by simp))
  | forwardFail next message hz hc =>
      exact fun hn => absurd hn (h.not_connected (hone.connected_of_fail hc))
  | takeDisconnect i next sender receiver hi hz hget =>
      exact fun hn => absurd (hi.symm.trans hn) (Option.some_ne_none i)
  | skipDisconnect next sender receiver command hz hget hne =>
      exact fun hn => ⟨⟨_, _, _, _, rfl⟩, (h hn).2⟩
  | disconnectEnd i next sender receiver hi hz hle he =>
      exact fun hn => absurd (hi.symm.trans hn) (Option.some_ne_none i)
  | disconnectSender next receiver command hz hs => exact fun hn => ⟨⟨_, _, _, _, rfl⟩, (h hn).2⟩
  | disconnectReceiver next sender command hz hs => exact fun hn => ⟨⟨_, _, _, _, rfl⟩, (h hn).2⟩
  | disconnect next hz =>
      exact fun hn => absurd hn (h.not_connected (hone.receiver next true true hz))
  | lock hd => exact fun hn => absurd hn (hzip hd (by simp))
  | close hd hh => exact fun hn => absurd hn (hzip hd (by simp))
  | takeConnect i next roomUrl hi hl hget =>
      exact fun hn => absurd (hi.symm.trans hn) (Option.some_ne_none i)
  | skipConnect next command hl hget hne => exact fun hn => ⟨(h hn).1, ⟨_, rfl⟩, (h hn).2.2⟩
  | connectEnd i next hi hl hle he =>
      exact fun hn => absurd (hi.symm.trans hn) (Option.some_ne_none i)
  | giveAway c hl hne => exact fun hn => absurd hn (hnext hl (by simp))
  | finish connected hsend hd hl => exact fun hn => absurd hn (hnext hl (by simp))
  | _ => exact h

/-- The invariant of the handler of the command to disconnect: it has passed no command to
disconnect, and it cancels the token when it has taken one. -/
structure DisconnectInv (s : WebRtcState) : Prop where
  subscribed : ∀ i, s.subscribed = some i → i ≤ s.sink.length
  next : ∀ next sender receiver, s.disconnect = .zip next sender receiver false →
    next ≤ s.sink.length ∧ (∀ i, s.subscribed = some i → i ≤ next) ∧
      .disconnect ∉ Async.heard (s.sink.take next) s.subscribed
  taken : ∀ next sender receiver, s.disconnect = .zip next sender receiver true →
    .disconnect ∈ s.heard
  disconnected : s.disconnect = .disconnected ∨ s.disconnect = .lock → s.cancelled = true
  cancelled : s.cancelled = true → .disconnect ∈ s.heard
  ended : s.disconnect = .ended → s.cancelled = true ∨ (∃ err, s.outcome = some (.error err)) ∨
    (s.sinkEnded = true ∧ .disconnect ∉ s.heard)

theorem DisconnectInv.init :
  DisconnectInv init
  := by
  refine ⟨nofun, ?_, nofun, ?_, nofun, nofun⟩
  · intro next sender receiver hz
    cases hz
    exact ⟨Nat.le_refl _, nofun, nofun⟩
  · intro h
    rcases h with h | h <;> cases h

theorem DisconnectInv.congr {s t : WebRtcState} (h : DisconnectInv s) (hsink : t.sink = s.sink)
    (hsub : t.subscribed = s.subscribed) (he : s.sinkEnded = true → t.sinkEnded = true)
    (hd : t.disconnect = s.disconnect) (hc : t.cancelled = s.cancelled)
    (ho : s.outcome ≠ none → t.outcome = s.outcome) :
  DisconnectInv t
  := by
  have hheard : t.heard = s.heard := by
    rw [heard, heard, hsink, hsub]
  refine ⟨?_, ?_, ?_, ?_, ?_, ?_⟩
  · rw [hsink, hsub]
    exact h.subscribed
  · rw [hsink, hsub, hd]
    exact h.next
  · rw [hheard, hd]
    exact h.taken
  · rw [hd, hc]
    exact h.disconnected
  · rw [hheard, hc]
    exact h.cancelled
  · rw [hheard, hd, hc]
    intro hended
    rcases h.ended hended with hcancel | ⟨err, herr⟩ | hrest
    · exact Or.inl hcancel
    · have hsome : s.outcome ≠ none := by
        rw [herr]
        exact Option.some_ne_none _
      exact Or.inr (Or.inl ⟨err, (ho hsome).trans herr⟩)
    · exact Or.inr (Or.inr (hrest.imp_left he))

/-- The handler has ended. -/
theorem DisconnectInv.of_ended {t : WebRtcState} (hd : t.disconnect = .ended)
    (hsub : ∀ i, t.subscribed = some i → i ≤ t.sink.length)
    (hc : t.cancelled = true → .disconnect ∈ t.heard)
    (h : t.cancelled = true ∨ (∃ err, t.outcome = some (.error err)) ∨
      (t.sinkEnded = true ∧ .disconnect ∉ t.heard)) :
  DisconnectInv t
  := by
  refine ⟨hsub, ?_, ?_, ?_, hc, fun _ => h⟩
  · intro next sender receiver hz
    rw [hd] at hz
    cases hz
  · intro next sender receiver hz
    rw [hd] at hz
    cases hz
  · intro hd'
    rw [hd] at hd'
    rcases hd' with hd' | hd' <;> cases hd'

/-- The handler waits, and goes on as it did. -/
theorem DisconnectInv.zip {s : WebRtcState} (h : DisconnectInv s) {next : ℕ}
    {sender sender' receiver receiver' command : Bool}
    (hz : s.disconnect = .zip next sender receiver command) :
  DisconnectInv { s with disconnect := .zip next sender' receiver' command }
  := by
  refine ⟨h.subscribed, ?_, ?_, ?_, h.cancelled, by simp⟩
  · rintro _ _ _ ⟨⟩
    exact h.next next sender receiver hz
  · rintro _ _ _ ⟨⟩
    exact h.taken next sender receiver hz
  · rintro (hd | hd) <;> cases hd

/-- The sink yields one more command. -/
theorem DisconnectInv.sink {s : WebRtcState} (h : DisconnectInv s) (hopen : s.sinkEnded = false)
    (command : WebRtcCommand) :
  DisconnectInv { s with sink := s.sink ++ [command] }
  := by
  have hheard : s.heard <+: Async.heard (s.sink ++ [command]) s.subscribed :=
    heard_isPrefix s.sink [command] s.subscribed
  refine ⟨?_, ?_, ?_, h.disconnected, ?_, ?_⟩
  · intro i hi
    rw [List.length_append]
    apply Nat.le_add_right_of_le (h.subscribed i hi)
  · intro next sender receiver hz
    obtain ⟨hle, hi, hn⟩ := h.next next sender receiver hz
    obtain ⟨hle', htake⟩ := take_concat hle command
    rw [← htake] at hn
    exact ⟨hle', hi, hn⟩
  · intro next sender receiver hz
    exact hheard.subset (h.taken next sender receiver hz)
  · intro hc
    exact hheard.subset (h.cancelled hc)
  · intro hended
    rcases h.ended hended with hc | herr | ⟨hclosed, -⟩
    · exact Or.inl hc
    · exact Or.inr (Or.inl herr)
    · rw [hopen] at hclosed
      cases hclosed

/-- The handler subscribes to the sink, and has been given nothing of it yet. -/
theorem DisconnectInv.subscribe {s : WebRtcState} (h : DisconnectInv s) (hn : s.subscribed = none)
    {next : ℕ} {sender receiver command : Bool}
    (hz : s.disconnect = .zip next sender receiver command) :
  DisconnectInv { s with
    subscribed := some s.sink.length
    disconnect := .zip s.sink.length sender receiver command }
  := by
  have hnil : s.heard = [] := by
    rw [heard, hn]
    rfl
  refine ⟨?_, ?_, ?_, ?_, ?_, nofun⟩
  · rintro i ⟨⟩
    exact Nat.le_refl _
  · rintro _ _ _ ⟨⟩
    refine ⟨Nat.le_refl _, ?_, ?_⟩
    · rintro i ⟨⟩
      exact Nat.le_refl _
    · dsimp only
      rw [List.take_length, heard_length]
      exact List.not_mem_nil
  · rintro _ _ _ ⟨⟩
    have hmem := h.taken next sender receiver hz
    rw [hnil] at hmem
    cases hmem
  · rintro (hd | hd) <;> cases hd
  · intro hc
    have hmem := h.cancelled hc
    rw [hnil] at hmem
    cases hmem

/-- The handler takes the command to disconnect. -/
theorem DisconnectInv.take {s : WebRtcState} (h : DisconnectInv s) {i next : ℕ}
    {sender receiver : Bool} (hi : s.subscribed = some i)
    (hz : s.disconnect = .zip next sender receiver false) (hget : s.sink[next]? = some .disconnect) :
  DisconnectInv { s with disconnect := .zip (next + 1) sender receiver true }
  := by
  refine ⟨h.subscribed, by simp, ?_, ?_, h.cancelled, by simp⟩
  · intro _ _ _ _
    obtain ⟨-, hle, -⟩ := h.next next sender receiver hz
    change .disconnect ∈ Async.heard s.sink s.subscribed
    rw [hi]
    apply List.mem_of_getElem? (i := next - i)
    rw [Async.heard, List.getElem?_drop, Nat.add_sub_of_le (hle i hi)]
    exact hget
  · rintro (hd | hd) <;> cases hd

/-- The handler passes a command. -/
theorem DisconnectInv.skip {s : WebRtcState} (h : DisconnectInv s) {next : ℕ}
    {sender receiver : Bool} {command : WebRtcCommand}
    (hz : s.disconnect = .zip next sender receiver false) (hget : s.sink[next]? = some command)
    (hne : command ≠ .disconnect) :
  DisconnectInv { s with disconnect := .zip (next + 1) sender receiver false }
  := by
  obtain ⟨-, hi, hnot⟩ := h.next next sender receiver hz
  refine ⟨h.subscribed, ?_, by simp, ?_, h.cancelled, by simp⟩
  · rintro _ _ _ ⟨⟩
    refine ⟨(List.getElem?_eq_some_iff.mp hget).1, fun i hs => Nat.le_succ_of_le (hi i hs), ?_⟩
    dsimp only
    rw [List.take_add_one, hget]
    intro hmem
    rcases mem_heard_append hmem with hmem | hmem
    · exact hnot hmem
    · exact hne (List.mem_singleton.mp hmem).symm
  · rintro (hd | hd) <;> cases hd

/-- An event keeps the invariant of the handler of the command to disconnect. -/
theorem DisconnectInv.step {s t : WebRtcState} {e : WebRtcEvent} (h : DisconnectInv s)
    (ho : e.ofRun = true → s.outcome = none) (hs : Step s e t) :
  DisconnectInv t
  := by
  cases hs with
  | sink command hopen => exact h.sink hopen command
  | sinkEnd hopen => exact h.congr rfl rfl (fun _ => rfl) rfl rfl (fun _ => rfl)
  | loopFail err hl =>
      exact DisconnectInv.of_ended rfl h.subscribed h.cancelled (Or.inr (Or.inl ⟨err, rfl⟩))
  | forwardFail next message hz hc =>
      exact DisconnectInv.of_ended rfl h.subscribed h.cancelled (Or.inr (Or.inl ⟨_, rfl⟩))
  | subscribe next sender receiver command hn hz => exact h.subscribe hn hz
  | takeDisconnect i next sender receiver hi hz hget => exact h.take hi hz hget
  | skipDisconnect next sender receiver command hz hget hne => exact h.skip hz hget hne
  | disconnectEnd i next sender receiver hi hz hle he =>
      obtain ⟨-, -, hnot⟩ := h.next next sender receiver hz
      rw [List.take_of_length_le hle] at hnot
      exact DisconnectInv.of_ended rfl h.subscribed h.cancelled (Or.inr (Or.inr ⟨he, hnot⟩))
  | disconnectSender next receiver command hz hs => exact h.zip hz
  | disconnectReceiver next sender command hz hs => exact h.zip hz
  | disconnect next hz =>
      exact ⟨h.subscribed, by simp, by simp, fun _ => rfl, fun _ => h.taken next true true hz,
        by simp⟩
  | lock hd =>
      exact ⟨h.subscribed, by simp, by simp, fun _ => h.disconnected (Or.inl hd), h.cancelled,
        by simp⟩
  | close hd hh =>
      exact DisconnectInv.of_ended rfl h.subscribed h.cancelled
        (Or.inl (h.disconnected (Or.inr hd)))
  | finish connected hsend hd hl =>
      exact h.congr rfl rfl id rfl rfl (fun hn => absurd (ho rfl) hn)
  | _ => exact h.congr rfl rfl id rfl rfl (fun _ => rfl)

/-- The invariant of the three handlers. -/
structure HandlersInv (s : WebRtcState) : Prop where
  oneshots : OneshotInv s
  send : SendInv s
  connect : ConnectInv s
  subscribing : Subscribing s
  disconnect : DisconnectInv s

/-- The invariant of the three handlers is kept by every step. -/
theorem HandlersInv.step {s t : WebRtcState} {e : WebRtcEvent} (h : HandlersInv s)
    (ht : machine.step s e = some t) :
  HandlersInv t
  := by
  obtain ⟨hp, ho, hs⟩ := step_of_machine ht
  exact ⟨h.oneshots.step hp hs, h.send.step ho hs, h.connect.step h.oneshots hs,
    h.subscribing.step h.oneshots hs, h.disconnect.step ho hs⟩

theorem HandlersInv.init :
  HandlersInv init
  := ⟨OneshotInv.init, SendInv.init, ConnectInv.init, Subscribing.init, DisconnectInv.init⟩

/-- The invariant of the three handlers holds of every state reached. -/
theorem HandlersInv.of_run {tr : List WebRtcEvent} {s : WebRtcState}
    (h : machine.run WebRtcState.init tr = some s) :
  HandlersInv s
  := by
  apply machine.run_invariant (P := HandlersInv) HandlersInv.init _ h
  intro s e t hs ht
  apply hs.step ht

/-! ### Quiescent states -/

/-- In a quiescent state the handler of the command to disconnect has subscribed to the sink. -/
theorem Subscribing.of_quiescent {s : WebRtcState} (h : Subscribing s) (hp : s.panicked = none)
    (hq : machine.Quiescent internalRun s) :
  ∃ i, s.subscribed = some i
  := by
  by_contra hn
  have hnone := Option.eq_none_iff_forall_ne_some.mpr fun i hi => hn ⟨i, hi⟩
  obtain ⟨⟨next, sender, receiver, command, hz⟩, -, ho⟩ := h hnone
  have hstuck := act_of_quiescent hq hp ho .subscribe ⟨trivial, rfl⟩
  rw [act, hnone, hz] at hstuck
  simp only at hstuck
  split at hstuck
  · cases hstuck
  · rename_i hwaits
    rw [sendWaits] at hwaits
    split at hwaits
    · rename_i next' sender' hsend
      obtain ⟨item, hitem⟩ : ∃ item, s.nextCommand next' = some item := by
        rw [Option.isNone_iff_eq_none] at hwaits
        exact Option.ne_none_iff_exists'.mp hwaits
      have hstuck := act_of_quiescent hq hp ho .pollSend ⟨trivial, rfl⟩
      rw [act, hsend] at hstuck
      simp only [hitem] at hstuck
      cases item with
      | none => cases hstuck
      | some command => cases command <;> cases hstuck
    · cases hwaits rfl

/-- A handler that has no command goes through the sink as far as it goes. -/
theorem getElem?_of_quiescent {s : WebRtcState} (hp : s.panicked = none) (ho : s.outcome = none)
    (hq : machine.Quiescent internalRun s) (hs : Subscribing s) {next : ℕ}
    (hl : s.messageLoop = .next next) :
  s.sink.length ≤ next
  := by
  obtain ⟨i, hi⟩ := hs.of_quiescent hp hq
  apply List.getElem?_eq_none_iff.mp
  cases hget : s.sink[next]? with
  | none => rfl
  | some command =>
      have hstuck := act_of_quiescent hq hp ho .pollConnect ⟨trivial, rfl⟩
      rw [act, hi, hl] at hstuck
      simp only [nextCommand_eq_some.mpr hget] at hstuck
      cases command <;> cases hstuck

/-- In a quiescent state the driver has connected, if there is a command to connect. -/
theorem HandlersInv.connected {s : WebRtcState} (h : HandlersInv s) (hp : s.panicked = none)
    (ho : s.outcome = none) (hq : machine.Quiescent internalRun s) {roomUrl : String}
    (hc : .connect roomUrl ∈ s.sink) :
  s.messageLoop.connected = true
  := by
  cases hl : s.messageLoop with
  | next next =>
      obtain ⟨-, hn⟩ := h.connect.next next hl
      rw [List.take_of_length_le (getElem?_of_quiescent hp ho hq h.subscribing hl)] at hn
      cases hn roomUrl hc
  | send c =>
      have hstuck := act_of_quiescent hq hp ho .giveAway ⟨trivial, rfl⟩
      rw [act, hl] at hstuck
      simp only at hstuck
      split at hstuck <;> cases hstuck
  | running => rfl
  | ended connected =>
      cases connected with
      | true => rfl
      | false => cases (h.connect.unconnected hl).2 roomUrl hc

/-- In a quiescent state the handler of the commands to send has none left, if the driver has
connected. -/
theorem HandlersInv.not_pending {s : WebRtcState} (h : HandlersInv s) (hp : s.panicked = none)
    (ho : s.outcome = none) (hq : machine.Quiescent internalRun s)
    (hl : s.messageLoop.connected = true) {next : ℕ} {sender : Bool} {message : Option Message}
    (hz : s.send = .zip next sender message) :
  message = none ∧ s.sink.length ≤ next
  := by
  cases message with
  | some message =>
      cases sender with
      | false =>
          have hstuck := act_of_quiescent hq hp ho .pollSendSender ⟨trivial, rfl⟩
          rw [act, hz] at hstuck
          simp only [recv_of_sent (h.oneshots.given.sent hl _)] at hstuck
          cases hstuck
      | true =>
          have hstuck := act_of_quiescent hq hp ho .forward ⟨trivial, rfl⟩
          rw [act, hz] at hstuck
          simp only at hstuck
          split at hstuck <;> cases hstuck
  | none =>
      refine ⟨rfl, ?_⟩
      apply List.getElem?_eq_none_iff.mp
      cases hget : s.sink[next]? with
      | none => rfl
      | some command =>
          have hstuck := act_of_quiescent hq hp ho .pollSend ⟨trivial, rfl⟩
          rw [act, hz] at hstuck
          simp only [nextCommand_eq_some.mpr hget] at hstuck
          cases command <;> cases hstuck

/-- In a quiescent state all that is sent has been forwarded, if the driver has been told to
connect, has not disconnected, and has not failed. -/
theorem HandlersInv.forwarded_eq {s : WebRtcState} (h : HandlersInv s) (hp : s.panicked = none)
    (herr : ∀ err, s.outcome ≠ some (.error err)) (hq : machine.Quiescent internalRun s)
    {roomUrl : String} (hconnect : .connect roomUrl ∈ s.sink) (hc : s.cancelled = false) :
  s.forwarded = sends s.sink
  := by
  have hended : s.send = .ended → s.forwarded = sends s.sink := by
    intro hsend
    rcases h.send.ended hsend with hcancel | ⟨err, he⟩ | ⟨-, hf⟩
    · rw [hc] at hcancel
      cases hcancel
    · cases herr err he
    · exact hf
  by_cases ho : s.outcome = none
  · cases hz : s.send with
    | ended => exact hended hz
    | zip next sender message =>
        have hl := h.connected hp ho hq hconnect
        obtain ⟨rfl, hle⟩ := h.not_pending hp ho hq hl hz
        obtain ⟨-, hf⟩ := h.send.zip next sender none hz
        rw [List.take_of_length_le hle] at hf
        exact (List.append_nil _).symm.trans hf
  · exact hended (h.send.outcome ho)

/-- In a quiescent state the handler of the commands to send has ended, if the driver has been told
to connect, and the handler of the command to disconnect has been given it. -/
theorem HandlersInv.send_ended {s : WebRtcState} (h : HandlersInv s) (hp : s.panicked = none)
    (hq : machine.Quiescent internalRun s) {roomUrl : String} (hconnect : .connect roomUrl ∈ s.sink)
    (hd : .disconnect ∈ s.heard) :
  s.send = .ended
  := by
  by_contra hne
  have ho : s.outcome = none := by
    by_contra ho
    exact hne (h.send.outcome ho)
  have hl := h.connected hp ho hq hconnect
  have hncancel : s.cancelled ≠ true := by
    intro hc
    have hstuck := act_of_quiescent hq hp ho .cancelSend ⟨trivial, rfl⟩
    rw [act] at hstuck
    split at hstuck
    · rw [if_pos hc] at hstuck
      cases hstuck
    · exact hne ‹_›
  cases hz : s.disconnect with
  | zip next sender receiver command =>
      cases command with
      | true => cases h.oneshots.not_zip hp ho hl hq next sender receiver hz
      | false =>
          obtain ⟨i, hi⟩ := h.subscribing.of_quiescent hp hq
          obtain ⟨-, -, hn⟩ := h.disconnect.next next sender receiver hz
          cases hget : s.sink[next]? with
          | none =>
              rw [List.take_of_length_le (List.getElem?_eq_none_iff.mp hget)] at hn
              exact hn hd
          | some command =>
              have hstuck := act_of_quiescent hq hp ho .pollDisconnect ⟨trivial, rfl⟩
              rw [act, hi, hz] at hstuck
              simp only [nextCommand_eq_some.mpr hget] at hstuck
              cases command <;> cases hstuck
  | disconnected => exact hncancel (h.disconnect.disconnected (Or.inl hz))
  | lock => exact hncancel (h.disconnect.disconnected (Or.inr hz))
  | ended =>
      rcases h.disconnect.ended hz with hcancel | ⟨err, herr⟩ | ⟨-, hn⟩
      · exact hncancel hcancel
      · rw [ho] at herr
        cases herr
      · exact hn hd

/-! ### Disconnecting -/

/-- The connection does not fail: the loop of messages ends only after the driver has disconnected,
and without an error. -/
def Connected (s : WebRtcState) : WebRtcEvent → Prop
  | .loopEnd result => s.cancelled = true ∧ result = .ok ()
  | _ => True

/-- The sink keeps pace with the driver: when it yields the first command to disconnect, and each
command after that, the driver has been told to connect, and its futures have nothing left to do. -/
def InPace (s : WebRtcState) : WebRtcEvent → Prop
  | .sink command => .disconnect ∈ s.sink ++ [command] →
      (∃ roomUrl, .connect roomUrl ∈ s.sink) ∧ machine.Quiescent internalRun s
  | e => s.Connected e

/-- What holds of the driver when the connection does not fail: the loop of messages has ended, and
the run has failed, only if the driver has disconnected. -/
structure Unfailing (s : WebRtcState) : Prop where
  handlers : HandlersInv s
  loop : s.messageLoop = .ended true → s.cancelled = true
  failed : ∀ err, s.outcome = some (.error err) → s.cancelled = true

theorem Unfailing.init :
  Unfailing init
  := ⟨HandlersInv.init, nofun, fun _ => nofun⟩

/-- A message can be forwarded no more only when the driver has disconnected. -/
theorem Unfailing.cancelled_of_fail {s : WebRtcState} (h : Unfailing s)
    (hc : s.senderClosed = true ∨ s.messageLoop = .ended true) :
  s.cancelled = true
  := by
  rcases hc with hc | hl
  · exact h.handlers.oneshots.cancelled.trans hc
  · exact h.loop hl

theorem Unfailing.step {s t : WebRtcState} {e : WebRtcEvent} (h : Unfailing s) (he : s.Connected e)
    (ht : machine.step s e = some t) :
  Unfailing t
  := by
  refine ⟨h.handlers.step ht, ?_, ?_⟩
  · cases (step_of_machine ht).2.2 with
    | loopEnd hl => exact fun _ => he.1
    | loopFail err hl => cases he.2
    | forwardFail next message hz hc => exact fun _ => h.cancelled_of_fail hc
    | disconnect next hz => exact fun _ => rfl
    | takeConnect i next roomUrl hi hl hget => exact nofun
    | skipConnect next command hl hget hne => exact nofun
    | connectEnd i next hi hl hle hend =>
        intro hended
        change MessageLoop.ended s.messageLoop.connected = _ at hended
        rw [hl] at hended
        cases hended
    | giveAway c hl hne => cases c <;> exact nofun
    | _ => exact h.loop
  · intro err herr
    cases (step_of_machine ht).2.2 with
    | loopFail err' hl => cases he.2
    | forwardFail next message hz hc => exact h.cancelled_of_fail hc
    | disconnect next hz => rfl
    | finish connected hsend hd hl => cases herr
    | _ => exact h.failed err herr

theorem Unfailing.of_run {tr : List WebRtcEvent} {s : WebRtcState}
    (h : machine.run WebRtcState.init tr = some s)
    (ha : machine.Along Connected WebRtcState.init tr) :
  Unfailing s
  := by
  apply machine.run_invariant_along Unfailing.init _ h ha
  intro s e t hs he ht
  exact hs.step he ht

/-- Nothing is forwarded any more when the driver has disconnected. -/
theorem forwarded_of_cancelled {s t : WebRtcState} {e : WebRtcEvent} (hone : OneshotInv s)
    (hc : s.cancelled = true) (hs : Step s e t) :
  t.cancelled = true ∧ t.forwarded = s.forwarded
  := by
  cases hs with
  | forward next message hz hclosed hl =>
      rw [hone.cancelled, hclosed] at hc
      cases hc
  | disconnect next hz => exact ⟨rfl, rfl⟩
  | _ => exact ⟨hc, rfl⟩

/-- What has been done when the sink keeps pace and has yielded a command to disconnect: its handler
has been given it, and the handler of the commands to send has forwarded all that was sent before,
and has nothing more to do than to pass that command, if it has not ended. -/
def Paced (s : WebRtcState) : Prop :=
  .disconnect ∈ s.sink → .disconnect ∈ s.heard ∧ s.forwarded = sends (beforeDisconnect s.sink) ∧
    (s.send = .ended ∨ ∃ next sender, s.send = .zip next sender none ∧
      s.sink = beforeDisconnect s.sink ++ [.disconnect] ∧
      (beforeDisconnect s.sink).length ≤ next)

/-- The handler has no message to forward. -/
theorem Paced.message {s : WebRtcState} (h : Paced s) (hd : .disconnect ∈ s.sink) {next : ℕ}
    {sender : Bool} {message : Option Message} (hz : s.send = .zip next sender message) :
  message = none ∧ s.sink = beforeDisconnect s.sink ++ [.disconnect] ∧
    (beforeDisconnect s.sink).length ≤ next
  := by
  obtain ⟨-, -, hsend⟩ := h hd
  rcases hsend with hended | ⟨next', sender', hz', hsink, hle⟩
  · rw [hz] at hended
    cases hended
  · rw [hz] at hz'
    cases hz'
    exact ⟨rfl, hsink, hle⟩

theorem Paced.congr {s t : WebRtcState} (h : Paced s) (hsink : t.sink = s.sink)
    (hsub : t.subscribed = s.subscribed) (hf : t.forwarded = s.forwarded)
    (hsend : t.send = s.send ∨ t.send = .ended) :
  Paced t
  := by
  intro hd
  rw [heard, hsub, hsink]
  rw [hsink] at hd
  obtain ⟨hheard, hforwarded, hrest⟩ := h hd
  refine ⟨hheard, hf.trans hforwarded, ?_⟩
  rcases hsend with hsend | hended
  · rw [hsend]
    exact hrest
  · exact Or.inl hended

/-- The sink yields a command in pace. -/
theorem Paced.sink {s : WebRtcState} (h : Paced s) (hinv : HandlersInv s)
    (herr : ∀ err, s.outcome ≠ some (.error err)) (hp : s.panicked = none)
    {command : WebRtcCommand} (he : s.InPace (.sink command)) :
  Paced { s with sink := s.sink ++ [command] }
  := by
  intro hmem
  obtain ⟨⟨roomUrl, hconnect⟩, hq⟩ := he hmem
  obtain ⟨i, hi⟩ := hinv.subscribing.of_quiescent hp hq
  change .disconnect ∈ Async.heard (s.sink ++ [command]) s.subscribed ∧
    s.forwarded = sends (beforeDisconnect (s.sink ++ [command])) ∧ _
  by_cases hd : .disconnect ∈ s.sink
  · obtain ⟨hheard, hforwarded, -⟩ := h hd
    refine ⟨(heard_isPrefix s.sink [command] s.subscribed).subset hheard, ?_,
      Or.inl (hinv.send_ended hp hq hconnect hheard)⟩
    rw [beforeDisconnect_append_of_mem hd]
    exact hforwarded
  · obtain rfl : .disconnect = command := by
      rcases List.mem_append.mp hmem with hmem | hmem
      · cases hd hmem
      · exact List.mem_singleton.mp hmem
    have hc : s.cancelled = false := by
      rw [Bool.eq_false_iff]
      intro hc
      exact hd (mem_of_mem_heard (hinv.disconnect.cancelled hc))
    rw [beforeDisconnect_append hd, hi, heard_append (hinv.disconnect.subscribed i hi)]
    refine ⟨List.mem_append_right _ List.mem_cons_self, hinv.forwarded_eq hp herr hq hconnect hc,
      ?_⟩
    change s.send = .ended ∨ _
    cases hz : s.send with
    | ended => exact Or.inl rfl
    | zip next sender message =>
        have ho : s.outcome = none := by
          by_contra ho
          rw [hinv.send.outcome ho] at hz
          cases hz
        obtain ⟨rfl, hle⟩ := hinv.not_pending hp ho hq (hinv.connected hp ho hq hconnect) hz
        exact Or.inr ⟨next, sender, rfl, rfl, hle⟩

/-- An event in pace is one of a run in which the connection does not fail. -/
theorem connected_of_inPace {s : WebRtcState} {e : WebRtcEvent} (h : s.InPace e) :
  s.Connected e
  := by
  cases e with
  | sink command => trivial
  | _ => exact h

/-- An event in pace keeps the pace, and does not fail. -/
theorem Paced.step {s t : WebRtcState} {e : WebRtcEvent} (h : Paced s) (hinv : Unfailing s)
    (herr : ∀ err, s.outcome ≠ some (.error err)) (hp : s.panicked = none) (he : s.InPace e)
    (hs : Step s e t) :
  Paced t ∧ ∀ err, t.outcome ≠ some (.error err)
  := by
  cases hs with
  | sink command hopen => exact ⟨h.sink hinv.handlers herr hp he, herr⟩
  | loopEnd hl => exact ⟨h.congr rfl rfl rfl (Or.inl rfl), herr⟩
  | loopFail err hl => cases he.2
  | takeSend next sender packet peerId hz hget =>
      refine ⟨?_, herr⟩
      intro hd
      obtain ⟨-, hsink, hle⟩ := h.message hd hz
      rw [hsink, List.getElem?_append_right hle, List.getElem?_singleton] at hget
      split at hget <;> cases hget
  | skipSend next sender command hz hget hn =>
      refine ⟨?_, herr⟩
      intro hd
      obtain ⟨hheard, hforwarded, -⟩ := h hd
      obtain ⟨-, hsink, hle⟩ := h.message hd hz
      exact ⟨hheard, hforwarded, Or.inr ⟨next + 1, sender, rfl, hsink, Nat.le_succ_of_le hle⟩⟩
  | sendEnd next sender hz hle he => exact ⟨h.congr rfl rfl rfl (Or.inr rfl), herr⟩
  | sendSender next message hz hs =>
      refine ⟨?_, herr⟩
      intro hd
      obtain ⟨hheard, hforwarded, -⟩ := h hd
      obtain ⟨rfl, hsink, hle⟩ := h.message hd hz
      exact ⟨hheard, hforwarded, Or.inr ⟨next, true, rfl, hsink, hle⟩⟩
  | forward next message hz hc hl =>
      refine ⟨?_, herr⟩
      intro hd
      cases (h.message hd hz).1
  | forwardFail next message hz hc =>
      have hheard := hinv.handlers.disconnect.cancelled (hinv.cancelled_of_fail hc)
      cases (h.message (mem_of_mem_heard hheard) hz).1
  | cancelSend hz hc => exact ⟨h.congr rfl rfl rfl (Or.inr rfl), herr⟩
  | subscribe next sender receiver command hn hz =>
      refine ⟨?_, herr⟩
      intro hd
      obtain ⟨hheard, -⟩ := h hd
      rw [heard, hn] at hheard
      cases hheard
  | finish connected hsend hd hl => exact ⟨h.congr rfl rfl rfl (Or.inl rfl), by simp⟩
  | _ => exact ⟨h.congr rfl rfl rfl (Or.inl rfl), herr⟩

/-- In a run along which the sink keeps pace, so does the handler of the commands to send, and the
run does not fail. -/
theorem Paced.of_run {tr : List WebRtcEvent} {s : WebRtcState}
    (h : machine.run WebRtcState.init tr = some s)
    (ha : machine.Along InPace WebRtcState.init tr) :
  Paced s ∧ ∀ err, s.outcome ≠ some (.error err)
  := by
  have hpaced : Unfailing s ∧ Paced s ∧ ∀ err, s.outcome ≠ some (.error err) := by
    apply machine.run_invariant_along
      (Q := fun s => Unfailing s ∧ Paced s ∧ ∀ err, s.outcome ≠ some (.error err))
      ⟨Unfailing.init, nofun, fun _ => nofun⟩ _ h ha
    rintro s e t ⟨hinv, hpaced, herr⟩ he ht
    obtain ⟨hp, -, hs⟩ := step_of_machine ht
    exact ⟨hinv.step (connected_of_inPace he) ht, hpaced.step hinv herr hp he hs⟩
  exact hpaced.2

/-- Nothing is forwarded after the driver has disconnected. -/
theorem forwarded_of_run {tr tr' : List WebRtcEvent} {s t : WebRtcState}
    (h : machine.run WebRtcState.init tr = some s) (hc : s.cancelled = true)
    (h' : machine.run s tr' = some t) :
  t.forwarded = s.forwarded
  := by
  have hinv : HandlersInv t ∧ t.cancelled = true ∧ t.forwarded = s.forwarded := by
    apply machine.run_invariant
      (P := fun t => HandlersInv t ∧ t.cancelled = true ∧ t.forwarded = s.forwarded)
      ⟨HandlersInv.of_run h, hc, rfl⟩ _ h'
    rintro u e v ⟨hinv, hc, hf⟩ hv
    obtain ⟨hc', hf'⟩ := forwarded_of_cancelled hinv.oneshots hc (step_of_machine hv).2.2
    exact ⟨hinv.step hv, hc', hf'.trans hf⟩
  exact hinv.2.2

/-- How sending and disconnecting go together, when the connection does not fail.  What has been
forwarded is at all times a prefix of what is sent.  As long as the driver has not disconnected it
does not fail, and all that is sent has been forwarded when it has connected and has nothing left to
do; nothing is forwarded after it has disconnected.  When the sink keeps pace with the driver, what
has been forwarded is always a prefix of what is sent before the first command to disconnect, and
all of it when the driver has nothing left to do, and the run does not fail. -/
theorem forwarded_until_disconnect {tr : List WebRtcEvent} {s : WebRtcState}
    (h : machine.run WebRtcState.init tr = some s)
    (ha : machine.Along Connected WebRtcState.init tr) :
  s.forwarded <+: sends s.sink ∧
    (s.cancelled = false → (∀ err, s.outcome ≠ some (.error err)) ∧
      (s.panicked = none → (∃ roomUrl, .connect roomUrl ∈ s.sink) →
        machine.Quiescent internalRun s → s.forwarded = sends s.sink)) ∧
    (s.cancelled = true → ∀ tr' t, machine.run s tr' = some t → t.forwarded = s.forwarded) ∧
    (machine.Along InPace WebRtcState.init tr →
      s.forwarded <+: sends (beforeDisconnect s.sink) ∧ (∀ err, s.outcome ≠ some (.error err)) ∧
      (s.panicked = none → (∃ roomUrl, .connect roomUrl ∈ s.sink) →
        machine.Quiescent internalRun s → s.forwarded = sends (beforeDisconnect s.sink)))
  := by
  have hinv : HandlersInv s := HandlersInv.of_run h
  refine ⟨hinv.send.forwarded, ?_, ?_, ?_⟩
  · intro hc
    have herr : ∀ err, s.outcome ≠ some (.error err) := by
      intro err herr
      have hcancel := (Unfailing.of_run h ha).failed err herr
      rw [hc] at hcancel
      cases hcancel
    refine ⟨herr, ?_⟩
    rintro hp ⟨roomUrl, hconnect⟩ hq
    apply hinv.forwarded_eq hp herr hq hconnect hc
  · intro hc tr' t h'
    apply forwarded_of_run h hc h'
  · intro hpace
    obtain ⟨hpaced, herr⟩ := Paced.of_run h hpace
    by_cases hd : .disconnect ∈ s.sink
    · rw [(hpaced hd).2.1]
      exact ⟨List.prefix_rfl, herr, fun _ _ _ => rfl⟩
    · rw [beforeDisconnect_of_notMem hd]
      refine ⟨hinv.send.forwarded, herr, ?_⟩
      rintro hp ⟨roomUrl, hconnect⟩ hq
      apply hinv.forwarded_eq hp herr hq hconnect
      rw [Bool.eq_false_iff]
      intro hc
      exact hd (mem_of_mem_heard (hinv.disconnect.cancelled hc))

/-- The driver disconnects before it forwards what was sent before the command to disconnect, which
is lost then; it forwards what was sent after the command, before it disconnects; and it fails when
it forwards what was sent after it has disconnected. -/
theorem sends_race_disconnect :
  (∃ s, machine.run WebRtcState.init
      [.sink (.connect "room"), .pollSend, .sink (.send [1] ⟨0⟩), .pollSend, .subscribe,
        .sink .disconnect, .pollDisconnect, .pollConnect, .giveAway, .giveAway, .giveAway,
        .pollDisconnectSender, .pollDisconnectReceiver, .disconnect, .lock, .close,
        .cancelSend] = some s ∧
    machine.Quiescent internal s ∧ s.forwarded = [] ∧
    sends (beforeDisconnect s.sink) = [(⟨0⟩, [1])]) ∧
  (∃ s, machine.run WebRtcState.init
      [.sink (.connect "room"), .pollSend, .subscribe, .pollConnect, .giveAway, .giveAway,
        .giveAway, .sink .disconnect, .sink (.send [1] ⟨0⟩), .pollSend, .pollSend,
        .pollSendSender, .forward] = some s ∧
    s.forwarded = [(⟨0⟩, [1])] ∧ sends (beforeDisconnect s.sink) = []) ∧
  (machine.run WebRtcState.init
      [.sink (.connect "room"), .pollSend, .subscribe, .pollConnect, .giveAway, .giveAway,
        .giveAway, .sink .disconnect, .sink (.send [1] ⟨0⟩), .pollSend, .pollSend,
        .pollSendSender, .pollDisconnect, .pollDisconnectSender, .pollDisconnectReceiver,
        .disconnect, .forward]).bind outcome =
    some (.error "send failed because receiver is gone")
  := by
  refine ⟨⟨_, rfl, ?_, rfl, rfl⟩, ⟨_, rfl, rfl, rfl⟩, rfl⟩
  intro e he
  cases e with
  | poll j => rfl
  | receive j => rfl
  | receiveEnd j => rfl
  | cancelReceive j => rfl
  | _ => first | rfl | cases he

/-- A message is forwarded before the sink yields the command to disconnect. -/
theorem forwarded_in_pace :
  ∃ s, machine.run WebRtcState.init
      ([.sink (.connect "room"), .pollSend] ++ (.sink (.send [1] ⟨0⟩) ::
        ([.pollSend, .subscribe, .pollConnect, .giveAway, .giveAway, .giveAway, .pollSendSender,
          .forward, .pollSendSender, .pollDisconnectSender, .pollDisconnectReceiver] ++
          (.sink .disconnect :: [.pollSend, .pollDisconnect, .disconnect, .lock, .close,
            .cancelSend])))) = some s ∧
    s.forwarded = sends (beforeDisconnect s.sink)
  := by
  refine ⟨_, rfl, ?_⟩
  have hrest := @forwarded_until_disconnect
      ([.sink (.connect "room"), .pollSend] ++ (.sink (.send [1] ⟨0⟩) ::
        ([.pollSend, .subscribe, .pollConnect, .giveAway, .giveAway, .giveAway, .pollSendSender,
          .forward, .pollSendSender, .pollDisconnectSender, .pollDisconnectReceiver] ++
          (.sink .disconnect :: [.pollSend, .pollDisconnect, .disconnect, .lock, .close,
            .cancelSend])))) _ rfl (machine.along_of_forall (by simp [Connected]) _)
  refine (hrest.2.2.2 ?_).2.2 rfl ⟨"room", List.mem_cons_self⟩ ?_
  · apply machine.along_append.mpr
    constructor
    · refine ⟨by simp [InPace, WebRtcState.init], fun t _ => ?_⟩
      apply machine.along_of_forall
      simp [InPace, Connected]
    rintro t ⟨⟩
    refine ⟨by simp [InPace, WebRtcState.init], ?_⟩
    rintro t ⟨⟩
    apply machine.along_append.mpr
    refine ⟨machine.along_of_forall (by simp [InPace, Connected]) _, ?_⟩
    rintro t ⟨⟩
    refine ⟨fun _ => ⟨⟨"room", List.mem_cons_self⟩, ?_⟩, fun t _ => ?_⟩
    · rintro e ⟨he, -⟩
      cases e <;> first | rfl | cases he
    · apply machine.along_of_forall
      simp [InPace, Connected]
  · rintro e ⟨he, -⟩
    cases e <;> first | rfl | cases he

end WebRtcState

end WebRtc

end Cyclers
