import Cyclers.WebTransport.Order

/-!
# The order of commands on one session

The handlers do not wait for each other: a session may be closed before the bytes of an earlier
command are written, and bytes of a later command may be written before it is closed.  The
commands on one session take effect in the order of the sink in the runs in which the sink keeps
pace with the handlers, and yields the next command when they are through with the others.
-/

open Async

namespace Cyclers

namespace WebTransport

universe u

variable {F : Type u}

namespace HandlersState

/-! ### Keeping pace -/

/-- What the driver does: it is polled for the first time, and the handlers that terminate sessions
and that send bytes go on. -/
def internal : HandlersEvent F → Prop
  | .start => True
  | .pollTerminate => True
  | .close => True
  | .pollSend => True
  | .write _ => True
  | .writeFails _ => True
  | .written => True
  | _ => False

/-- The sink keeps pace: it yields a command only when the driver has nothing left to do with the
others. -/
def InPace (s : HandlersState F) : HandlersEvent F → Prop
  | .sink _ => (machine F).Quiescent internal s
  | _ => True

/-- The handlers have nothing left to do when each awaits a command, and the sink has no more of
them. -/
theorem quiescent_of_next {s : HandlersState F} (hstart : s.start ≠ none) (he : s.sinkEnded = false)
    (ht : s.terminate = .next) (hterminated : s.sink[s.terminated]? = none) (hs : s.send = .next)
    (hsent : s.sink[s.sent]? = none) :
  (machine F).Quiescent internal s
  := by
  intro e hi
  cases e with
  | start => exact if_neg hstart
  | pollTerminate => simp [machine, step, handle, pollTerminate, ht, hterminated, he]
  | close => simp [machine, step, handle, ht]
  | pollSend => simp [machine, step, handle, pollSend, hs, hsent, he]
  | write n => simp [machine, step, handle, hs]
  | writeFails err => simp [machine, step, handle, hs]
  | written => simp [machine, step, handle, hs]
  | _ => cases hi

/-- A failure of the handler that terminates sessions is one of `run`. -/
theorem result_of_terminate {s : HandlersState F} {err : BoxError}
    (h : s.terminate = .returned (.error err)) :
  s.result ≠ none
  := by
  rw [result, h]
  split <;> simp_all

/-- While `run` goes on and has nothing left to do, the handler that terminates sessions is past all
commands, and not busy with one. -/
theorem TerminateInv.of_quiescent {s : HandlersState F} (h : TerminateInv s) (hr : s.Running)
    (hq : (machine F).Quiescent internal s) :
  s.sink.length ≤ s.terminated ∧ ∀ x, s.terminate ≠ .busy x
  := by
  cases ht : s.terminate with
  | next =>
      refine ⟨?_, by simp⟩
      apply List.getElem?_eq_none_iff.mp
      by_contra hget
      obtain ⟨command, hget⟩ := Option.ne_none_iff_exists'.mp hget
      have hnone := hq .pollTerminate trivial
      simp only [machine, HandlersState.step, handle, pollTerminate, if_pos hr, ht, hget] at hnone
      split at hnone
      · split at hnone <;> cases hnone
      · cases hnone
      · cases ‹some command = none›
      · simp_all
  | busy x =>
      have hnone := hq .close trivial
      simp [machine, HandlersState.step, handle, hr, ht] at hnone
  | returned result =>
      refine ⟨?_, by simp⟩
      cases result with
      | ok => exact (h.ended ht).2
      | error err => cases result_of_terminate ht hr.2

/-- While `run` goes on and has nothing left to do, the handler that sends bytes is through with all
commands, unless it has returned. -/
theorem done_of_quiescent {s : HandlersState F} (hr : s.Running)
    (hq : (machine F).Quiescent internal s) {i : ℕ} (hi : i < s.sink.length) :
  s.Done i ∨ s.send = .returned (.ok ())
  := by
  cases hs : s.send with
  | next =>
      left
      apply done_of_next hs
      apply Nat.lt_of_lt_of_le hi
      apply List.getElem?_eq_none_iff.mp
      by_contra hget
      obtain ⟨command, hget⟩ := Option.ne_none_iff_exists'.mp hget
      have hnone := hq .pollSend trivial
      simp only [machine, step, handle, pollSend, if_pos hr, hs, hget] at hnone
      split at hnone
      · split at hnone <;> cases hnone
      · cases hnone
      · cases ‹some command = none›
      · simp_all
  | busy w =>
      by_cases hl : w.left = []
      · have hnone := hq .written trivial
        simp [machine, step, handle, hr, hs, hl] at hnone
      · have hnone := hq (.writeFails "") trivial
        simp [machine, step, handle, hr, hs, hl] at hnone
  | returned result =>
      cases result with
      | ok => exact .inr rfl
      | error err => cases not_failed hr.2 err hs

/-- A command that the handler is through with stays so. -/
theorem Done.step {s t : HandlersState F} {e : HandlersEvent F} (hs : Step s e t) {i : ℕ}
    (h : s.Done i) :
  t.Done i
  := by
  have hlt : i + 1 < s.sent + 1 := by
    rcases h with h | ⟨h, -⟩ <;> omega
  cases hs with
  | takeSend command tx hr hn hget htx => exact .inl hlt
  | invalidStream command err hr hn hget herr => exact .inl hlt
  | skipSend command hr hn hget hne => exact .inl hlt
  | endSend hr hn =>
      rcases h with h | ⟨h, -⟩
      · exact .inl h
      · exact .inr ⟨h, .inr rfl⟩
  | write w n hr hw hc => exact .inl (h.lt_of_busy hw)
  | writeFails w err hr hw => exact .inl (h.lt_of_busy hw)
  | written w send hr hw hl hsend => exact .inl (h.lt_of_busy hw)
  | _ => exact h

/-- A command of the sink stays where it is. -/
theorem Step.getElem?_sink {s t : HandlersState F} {e : HandlersEvent F} (hs : Step s e t) {i : ℕ}
    (hi : i < s.sink.length) :
  t.sink[i]? = s.sink[i]?
  := by
  cases hs with
  | sink command he => exact List.getElem?_append_left hi
  | _ => rfl

/-- A session that is closed stays so. -/
theorem Step.closed {s t : HandlersState F} {e : HandlersEvent F} (hs : Step s e t)
    {session : SessionId} (h : s.closed session = true) :
  t.closed session = true
  := by
  cases hs with
  | close number command hr hb =>
      dsimp only
      rw [Function.update_apply]
      split
      · rfl
      · exact h
  | _ => exact h

/-- What `run` returns is final. -/
theorem Step.result {s t : HandlersState F} {e : HandlersEvent F} (hs : Step s e t)
    (h : s.result ≠ none) :
  t.result ≠ none
  := by
  cases hs with
  | sink command he => exact h
  | sinkEnd => exact h
  | established session => exact h
  | fail method session result => exact h
  | insert method origin stream hopen hof => exact h
  | start hn => exact h
  | _ => exact absurd ‹s.Running›.2 h

/-- The handler that sends bytes does nothing more once it has returned. -/
theorem Step.send_returned {s t : HandlersState F} {e : HandlersEvent F} (hs : Step s e t)
    (h : s.send = .returned (.ok ())) :
  t.send = .returned (.ok ()) ∧ t.sent = s.sent
  := by
  cases hs with
  | takeSend command tx hr hn hget htx => cases h.symm.trans hn
  | invalidStream command err hr hn hget herr => cases h.symm.trans hn
  | skipSend command hr hn hget hne => cases h.symm.trans hn
  | endSend hr hn hget he => cases h.symm.trans hn
  | write w n hr hw hc => cases h.symm.trans hw
  | writeFails w err hr hw => cases h.symm.trans hw
  | written w send hr hw hl hsend => cases h.symm.trans hw
  | _ => exact ⟨h, rfl⟩

/-- The handler that sends bytes is through with a command, of which all bytes are written among
some effects, or has returned before it. -/
def Over (s : HandlersState F) (l : List Effect) (i : ℕ) (command : SendBytesCommand) : Prop :=
  s.Done i ∧ bytesOf i l = command.bytes ∨ s.send = .returned (.ok ()) ∧ s.sent ≤ i

/-- A command that is over stays so, and has no effects any more. -/
theorem Over.step {s t : HandlersState F} {e : HandlersEvent F} {l : List Effect} {i : ℕ}
    {command : SendBytesCommand} (h : s.Over l i command) (hs : Step s e t) :
  t.Over l i command
  := by
  rcases h with ⟨hdone, hbytes⟩ | ⟨hsend, hle⟩
  · exact .inl ⟨hdone.step hs, hbytes⟩
  · obtain ⟨hsend', hsent⟩ := hs.send_returned hsend
    exact .inr ⟨hsend', hsent ▸ hle⟩

theorem Over.ne_number {s : HandlersState F} (hinv : SendInv s) {l : List Effect} {i : ℕ}
    {command : SendBytesCommand} (h : s.Over l i command) {w : Writing} (hw : s.send = .busy w) :
  w.number ≠ i
  := by
  rcases h with ⟨hdone, -⟩ | ⟨hsend, -⟩
  · obtain ⟨hn, -⟩ := hinv.busy w hw
    have hlt := hdone.lt_of_busy hw
    omega
  · cases hsend.symm.trans hw

/-- The invariant of the runs in which the sink keeps pace: the driver has missed no command, and is
through with all of them but the last, unless it has returned. -/
structure PaceInv (s : HandlersState F) : Prop where
  start : ∀ n, s.start = some n → n = 0
  unstarted : s.start = none → s.sink = []
  closed : ∀ j command, j + 1 < s.sink.length → s.sink[j]? = some (.terminateSession command) →
    s.closed command.sessionId = true ∨ s.result ≠ none
  done : ∀ i, i + 1 < s.sink.length →
    s.Done i ∨ s.send = .returned (.ok ()) ∨ s.result ≠ none
  precedes : ∀ l l' j session, s.effects = l ++ .close j session :: l' →
    ∀ i < j, ∀ command, s.sink[i]? = some (.sendBytes command) →
      s.Over l i command ∧ ∀ e ∈ l', e.sends ≠ some i
  follows : ∀ i session bytes, .write i session bytes ∈ s.effects → ∀ j < i, ∀ command,
    s.sink[j]? = some (.terminateSession command) → command.sessionId ≠ session

theorem PaceInv.init :
  PaceInv (init F)
  := by
  constructor <;> simp [HandlersState.init]

/-- A list that ends with `a` and has `b` in it has `b` at its end or before it. -/
theorem split_concat {α : Type*} {l l₁ l₂ : List α} {a b : α} (h : l ++ [a] = l₁ ++ b :: l₂) :
  (l = l₁ ∧ a = b ∧ l₂ = []) ∨ ∃ l₃, l = l₁ ++ b :: l₃ ∧ l₂ = l₃ ++ [a]
  := by
  rcases List.eq_nil_or_concat l₂ with rfl | ⟨l₃, c, rfl⟩
  · obtain ⟨rfl, hab⟩ := List.append_inj' h rfl
    exact .inl ⟨rfl, List.head_eq_of_cons_eq hab, rfl⟩
  · rw [List.concat_eq_append, ← List.cons_append, ← List.append_assoc] at h
    obtain ⟨rfl, hac⟩ := List.append_inj' h rfl
    obtain rfl := List.head_eq_of_cons_eq hac
    exact .inr ⟨l₃, rfl, List.concat_eq_append⟩

/-- The sink yields a command, or stays as it is. -/
theorem Step.sink_eq {s t : HandlersState F} {e : HandlersEvent F} (hs : Step s e t) :
  t.sink = s.sink ∨ ∃ command, e = .sink command ∧ t = { s with sink := s.sink ++ [command] }
  := by
  cases hs with
  | sink command he => exact .inr ⟨command, rfl, rfl⟩
  | _ => exact .inl rfl

/-- While `run` has not returned, it has been polled if it has nothing left to do. -/
theorem running_of_quiescent {s : HandlersState F} (hq : (machine F).Quiescent internal s)
    (hr : s.result = none) :
  s.Running
  := by
  refine ⟨?_, hr⟩
  intro hstart
  have hnone := hq .start trivial
  simp [machine, step, hstart] at hnone

section

variable {s t : HandlersState F} {e : HandlersEvent F} (hsend : SendInv s)
  (hterminate : TerminateInv s) (h : PaceInv s) (hs : Step s e t)

include h hs

/-- The driver misses no command, as the sink yields the first one only when it has been polled. -/
theorem PaceInv.start_step (hp : s.InPace e) :
  (∀ n, t.start = some n → n = 0) ∧ (t.start = none → t.sink = [])
  := by
  cases hs with
  | sink command he =>
      refine ⟨h.start, ?_⟩
      intro hstart
      have hnone := hp .start trivial
      simp [machine, HandlersState.step, show s.start = none from hstart] at hnone
  | start hn =>
      refine ⟨?_, by simp⟩
      rintro n ⟨⟩
      rw [h.unstarted hn]
      rfl
  | _ => exact ⟨h.start, h.unstarted⟩

include hterminate

/-- When the sink yields a command, the sessions of those before are closed. -/
theorem PaceInv.closed_step (hp : s.InPace e) {j : ℕ} {command : TerminateSessionCommand}
    (hj : j + 1 < t.sink.length) (hget : t.sink[j]? = some (.terminateSession command)) :
  t.closed command.sessionId = true ∨ t.result ≠ none
  := by
  rcases hs.sink_eq with hsink | ⟨command', rfl, rfl⟩
  · rw [hsink] at hj hget
    exact (h.closed j command hj hget).imp hs.closed hs.result
  · change s.closed command.sessionId = true ∨ s.result ≠ none
    rcases Option.eq_none_or_eq_some s.result with hr | ⟨result, hr⟩
    · left
      have hrun := running_of_quiescent hp hr
      obtain ⟨hall, hbusy⟩ := hterminate.of_quiescent hrun hp
      obtain ⟨n, hn⟩ := Option.ne_none_iff_exists'.mp hrun.1
      obtain rfl := h.start n hn
      have hlt : j < s.sink.length := by
        simpa using hj
      rw [hs.getElem?_sink hlt] at hget
      rcases hterminate.through 0 hn j command (Nat.zero_le j) (Nat.lt_of_lt_of_le hlt hall) hget
        with hc | hb | ⟨err, herr⟩
      · exact hc
      · cases hbusy _ hb
      · cases result_of_terminate herr hr
    · right
      rw [hr]
      exact Option.some_ne_none result

/-- What comes before the close of a session is over after the next step as well. -/
theorem PaceInv.precedes_step {l l' : List Effect} {j : ℕ} {session : SessionId}
    (heq : s.effects = l ++ .close j session :: l') {i : ℕ} (hi : i < j) {command : SendBytesCommand}
    (hget : t.sink[i]? = some (.sendBytes command)) :
  s.Over l i command ∧ t.Over l i command ∧ ∀ e ∈ l', e.sends ≠ some i
  := by
  have hj : .close j session ∈ s.effects := by
    rw [heq]
    simp
  obtain ⟨-, ⟨closing, hclose, -⟩, -⟩ := hterminate.closes j session hj
  rw [hs.getElem?_sink (Nat.lt_trans hi (List.getElem?_eq_some_iff.mp hclose).1)] at hget
  obtain ⟨hover, hl'⟩ := h.precedes l l' j session heq i hi command hget
  exact ⟨hover, hover.step hs, hl'⟩

/-- An effect more, of a command that was not over, leaves what comes before the close of a session
over. -/
theorem PaceInv.precedes_concat {e' : Effect} (heff : t.effects = s.effects ++ [e'])
    (hne : ∀ l i command, s.Over l i command → e'.sends ≠ some i) (hclose : e'.closes = none)
    {l l' : List Effect} {j : ℕ} {session : SessionId}
    (heq : t.effects = l ++ .close j session :: l') {i : ℕ} (hi : i < j)
    {command : SendBytesCommand} (hget : t.sink[i]? = some (.sendBytes command)) :
  t.Over l i command ∧ ∀ e ∈ l', e.sends ≠ some i
  := by
  rw [heff] at heq
  rcases split_concat heq with ⟨-, rfl, -⟩ | ⟨l₃, hold, rfl⟩
  · cases hclose
  · obtain ⟨hover, hover', hl₃⟩ := h.precedes_step hterminate hs hold hi hget
    refine ⟨hover', ?_⟩
    intro e he
    rcases List.mem_append.mp he with he | he
    · apply hl₃ e he
    · obtain rfl := List.mem_singleton.mp he
      apply hne l i command hover

include hsend

omit hsend hterminate in
/-- When the sink yields a command, the handler that sends bytes is through with those before. -/
theorem PaceInv.done_step (hp : s.InPace e) {i : ℕ} (hi : i + 1 < t.sink.length) :
  t.Done i ∨ t.send = .returned (.ok ()) ∨ t.result ≠ none
  := by
  rcases hs.sink_eq with hsink | ⟨command', rfl, rfl⟩
  · rw [hsink] at hi
    exact (h.done i hi).imp (Done.step hs) (Or.imp (fun hr => (hs.send_returned hr).1) hs.result)
  · change s.Done i ∨ s.send = .returned (.ok ()) ∨ s.result ≠ none
    rcases Option.eq_none_or_eq_some s.result with hr | ⟨result, hr⟩
    · have hlt : i < s.sink.length := by
        simpa using hi
      exact (done_of_quiescent (running_of_quiescent hp hr) hp hlt).imp_right .inl
    · right
      right
      rw [hr]
      exact Option.some_ne_none result

omit hterminate in
/-- What was written on a session follows no command to terminate it after the next step. -/
theorem PaceInv.follows_step {i : ℕ} {session : SessionId} {bytes : List UInt8}
    (hw : .write i session bytes ∈ s.effects) {j : ℕ} (hj : j < i)
    {command : TerminateSessionCommand}
    (hget : t.sink[j]? = some (.terminateSession command)) :
  command.sessionId ≠ session
  := by
  have hi := hsend.sends _ hw i rfl
  have hlt : j < s.sink.length := by
    have hle := hsend.sent_le
    omega
  rw [hs.getElem?_sink hlt] at hget
  apply h.follows i session bytes hw j hj command hget

omit hs in
/-- A command that comes before the one whose session is closed is over when it is. -/
theorem PaceInv.over_of_close {j : ℕ} {command : TerminateSessionCommand} (hr : s.Running)
    (hb : s.terminate = .busy (j, command)) {i : ℕ} (hi : i < j) {command' : SendBytesCommand}
    (hget : s.sink[i]? = some (.sendBytes command')) :
  s.Over s.effects i command'
  := by
  obtain ⟨-, hclose⟩ := hterminate.busy j command hb
  have hlt := (List.getElem?_eq_some_iff.mp hclose).1
  rcases h.done i (by omega) with hdone | hreturned | hresult
  · exact .inl ⟨hdone, hsend.done i command' hget hdone⟩
  · by_cases hsent : s.sent ≤ i
    · exact .inr ⟨hreturned, hsent⟩
    · have hdone : s.Done i := by
        rcases Nat.lt_or_eq_of_le (Nat.lt_of_not_le hsent) with hlt | heq
        · exact .inl hlt
        · exact .inr ⟨heq, .inr hreturned⟩
      exact .inl ⟨hdone, hsend.done i command' hget hdone⟩
  · cases hresult hr.2

/-- An event keeps the invariant when the sink keeps pace. -/
theorem PaceInv.step (hp : s.InPace e) :
  PaceInv t
  := by
  obtain ⟨hstart, hunstarted⟩ := h.start_step hs hp
  have hclosed : ∀ j command, j + 1 < t.sink.length → t.sink[j]? = some (.terminateSession command) →
      t.closed command.sessionId = true ∨ t.result ≠ none :=
    fun j command => h.closed_step hterminate hs hp
  have hdone := fun i => h.done_step hs hp (i := i)
  have hne : ∀ w, s.send = .busy w → ∀ l i command, s.Over l i command → some w.number ≠ some i := by
    intro w hw l i command hover heq
    exact hover.ne_number hsend hw (Option.some.inj heq)
  have hsame : t.effects = s.effects → PaceInv t := by
    intro heff
    refine ⟨hstart, hunstarted, hclosed, hdone, ?_, ?_⟩
    · intro l l' j session heq i hi command hget
      rw [heff] at heq
      apply (h.precedes_step hterminate hs heq hi hget).2
    · intro i session bytes hw j hj command hget
      rw [heff] at hw
      apply h.follows_step hsend hs hw hj hget
  have hstep := hs
  cases hs with
  | write w n hr hw hc =>
      refine ⟨hstart, hunstarted, hclosed, hdone, ?_, ?_⟩
      · intro l l' j session heq i hi command hget
        apply h.precedes_concat hterminate hstep rfl (hne w hw) rfl heq hi hget
      · intro i session bytes hmem j hj command hget
        rcases List.mem_append.mp hmem with hmem | hmem
        · apply h.follows_step hsend hstep hmem hj hget
        · cases List.mem_singleton.mp hmem
          intro hses
          obtain ⟨-, hsink, -⟩ := hsend.busy w hw
          have hlt := (List.getElem?_eq_some_iff.mp hsink).1
          rcases h.closed j command (by omega) hget with hclosed | hresult
          · rw [hses, hc] at hclosed
            cases hclosed
          · cases hresult hr.2
  | writeFails w err hr hw =>
      refine ⟨hstart, hunstarted, hclosed, hdone, ?_, ?_⟩
      · intro l l' j session heq i hi command hget
        apply h.precedes_concat hterminate hstep rfl (hne w hw) rfl heq hi hget
      · intro i session bytes hmem j hj command hget
        rcases List.mem_append.mp hmem with hmem | hmem
        · apply h.follows_step hsend hstep hmem hj hget
        · cases List.mem_singleton.mp hmem
  | close number command hr hb =>
      refine ⟨hstart, hunstarted, hclosed, hdone, ?_, ?_⟩
      · intro l l' j session heq i hi command' hget
        rcases split_concat heq with ⟨rfl, hlast, rfl⟩ | ⟨l₃, hold, rfl⟩
        · obtain ⟨rfl, rfl⟩ := Effect.close.inj hlast
          have hover := h.over_of_close hsend hterminate hr hb hi hget
          exact ⟨hover.step hstep, nofun⟩
        · obtain ⟨-, hover, hl₃⟩ := h.precedes_step hterminate hstep hold hi hget
          refine ⟨hover, ?_⟩
          intro e he
          rcases List.mem_append.mp he with he | he
          · apply hl₃ e he
          · obtain rfl := List.mem_singleton.mp he
            exact nofun
      · intro i session bytes hmem j hj command' hget
        rcases List.mem_append.mp hmem with hmem | hmem
        · apply h.follows_step hsend hstep hmem hj hget
        · cases List.mem_singleton.mp hmem
  | _ => exact hsame rfl

end

/-- The invariant holds of every state reached by a run in which the sink keeps pace. -/
theorem PaceInv.of_run {tr : List (HandlersEvent F)} {s : HandlersState F}
    (h : (machine F).run (HandlersState.init F) tr = some s)
    (hp : (machine F).Along InPace (HandlersState.init F) tr) :
  PaceInv s
  := by
  have hinit : SendInv (HandlersState.init F) ∧ TerminateInv (HandlersState.init F) ∧
      PaceInv (HandlersState.init F) := ⟨SendInv.init, TerminateInv.init, PaceInv.init⟩
  refine ((machine F).run_invariant_along
    (Q := fun s => SendInv s ∧ TerminateInv s ∧ PaceInv s) hinit ?_ h hp).2.2
  rintro s e t ⟨hsend, hterminate, hpace⟩ he ht
  have hs := step_of_machine ht
  exact ⟨hsend.step hs, hterminate.step hs, hpace.step hsend hterminate hs he⟩

/-! ### What is in order -/

/-- Each handler is in order by itself.  The commands to send bytes have their effects in the
order of the sink, the bytes written for each are the first of its bytes, and all of them once
the handler is through with it; sessions are closed in the order of the sink; nothing is written
on a session once it is closed; and `run` fails only when configuring the client does, when a
command has an invalid id or is for a stream that is not writable, or when a write fails. -/
structure InOrder (s : HandlersState F) : Prop where
  sends : (s.effects.filterMap Effect.sends).Pairwise (· ≤ ·)
  part : ∀ i command, s.sink[i]? = some (.sendBytes command) →
    bytesOf i s.effects <+: command.bytes
  done : ∀ i command, s.sink[i]? = some (.sendBytes command) → s.Done i →
    bytesOf i s.effects = command.bytes
  closes : (s.effects.filterMap Effect.closes).Pairwise (· < ·)
  silent : ∀ l l' j session, s.effects = l ++ .close j session :: l' →
    ∀ i bytes, .write i session bytes ∉ l'
  failed : ∀ err, s.result = some (.error err) → s.configure = some (.error err) ∨
    err = "invalid session ID" ∨ err = "invalid stream ID" ∨
    err = "stream is not a writable stream" ∨
    ∃ l i session, s.effects = l ++ [.writeFailed i session]

/-- The commands on each session are in order: the bytes of a command are all written when a session
is closed for a later command, unless one before it has ended the sending, and no write of it fails
after that; nothing is written on a session for a command that comes after one to terminate it; and
when `run` ends with a write that fails on a session that is closed, the command to close it comes
first. -/
structure SessionsInOrder (s : HandlersState F) : Prop where
  precedes : ∀ l l' j session, s.effects = l ++ .close j session :: l' →
    ∀ i < j, ∀ command, s.sink[i]? = some (.sendBytes command) →
      (bytesOf i l = command.bytes ∨
        ∃ i' < i, ∃ command', s.sink[i']? = some (.sendBytes command') ∧
          command'.finished = true) ∧
      ∀ e ∈ l', e.sends ≠ some i
  follows : ∀ i session bytes, .write i session bytes ∈ s.effects → ∀ j < i, ∀ command,
    s.sink[j]? = some (.terminateSession command) → command.sessionId ≠ session
  failed : ∀ l i session, s.effects = l ++ [.writeFailed i session] →
    ∀ j, .close j session ∈ l → j < i

/-- The error of `run` is that of one of the handlers. -/
theorem error_of_result {s : HandlersState F} {err : BoxError}
    (h : s.result = some (.error err)) :
  s.configure = some (.error err) ∨ s.terminate = .returned (.error err) ∨
    s.send = .returned (.error err)
  := by
  rw [result] at h
  split at h <;> simp_all

theorem InOrder.of_run {tr : List (HandlersEvent F)} {s : HandlersState F}
    (h : (machine F).run (HandlersState.init F) tr = some s) :
  InOrder s
  := by
  have hsend := SendInv.of_run h
  have hterminate := TerminateInv.of_run h
  refine ⟨hsend.order, hsend.part, hsend.done, hterminate.order, ?_, ?_⟩
  · intro l l' j session heq i bytes hmem
    have hsilent := hterminate.silent
    rw [heq, List.pairwise_append, List.pairwise_cons] at hsilent
    apply hsilent.2.1.1 _ hmem j session rfl i bytes rfl
  · intro err herr
    rcases error_of_result herr with herr | herr | herr
    · exact .inl herr
    · exact .inr (.inl (hterminate.failed err herr))
    · exact .inr (.inr (hsend.failed err herr))

theorem SessionsInOrder.of_run {tr : List (HandlersEvent F)} {s : HandlersState F}
    (h : (machine F).run (HandlersState.init F) tr = some s)
    (hp : (machine F).Along InPace (HandlersState.init F) tr) :
  SessionsInOrder s
  := by
  have hsend := SendInv.of_run h
  have hterminate := TerminateInv.of_run h
  have hpace := PaceInv.of_run h hp
  refine ⟨?_, hpace.follows, ?_⟩
  · intro l l' j session heq i hi command hget
    obtain ⟨hover, hl'⟩ := hpace.precedes l l' j session heq i hi command hget
    refine ⟨?_, hl'⟩
    rcases hover with ⟨-, hbytes⟩ | ⟨hreturned, hle⟩
    · exact .inl hbytes
    · rcases hsend.ended hreturned with ⟨-, hall⟩ | ⟨i', hlt, command', hget', hfin⟩
      · cases Nat.not_le_of_lt (List.getElem?_eq_some_iff.mp hget).1 (Nat.le_trans hall hle)
      · exact .inr ⟨i', Nat.lt_of_lt_of_le hlt hle, command', hget', hfin⟩
  · intro l i session heq j hj
    have hmem : .writeFailed i session ∈ s.effects := by
      rw [heq]
      simp
    obtain ⟨-, command', hsends⟩ := hsend.found i session (hsend.target i session hmem)
    obtain ⟨l₁, l₂, rfl⟩ := List.append_of_mem hj
    have hj : .close j session ∈ s.effects := by
      rw [heq]
      simp
    obtain ⟨-, ⟨command, hclose, -⟩, -⟩ := hterminate.closes j session hj
    rcases Nat.lt_trichotomy j i with hlt | rfl | hlt
    · exact hlt
    · rw [hclose] at hsends
      cases hsends
    · rw [List.append_assoc, List.cons_append] at heq
      obtain ⟨-, hnot⟩ := hpace.precedes _ _ j session heq i hlt command' hsends
      cases hnot (.writeFailed i session) (by simp) rfl

/-- The order in which commands take effect.  In every state reached, each handler is in order
by itself; and the commands on each session are in order in every state reached by a run in
which the sink keeps pace. -/
theorem commands_in_order {tr : List (HandlersEvent F)} {s : HandlersState F}
    (h : (machine F).run (HandlersState.init F) tr = some s) :
  InOrder s ∧
    ((machine F).Along InPace (HandlersState.init F) tr → SessionsInOrder s)
  := ⟨InOrder.of_run h, SessionsInOrder.of_run h⟩

/-- Bytes are to be sent on a stream of a session, and the session is to be terminated.  When the
handler that terminates sessions is polled first, the session is closed before the bytes are
written, and `run` fails.  When the two commands come the other way round and the handler that
sends bytes is polled first, the bytes are written. -/
theorem commands_overtaken :
  (∃ s, (machine Unit).run (HandlersState.init Unit)
      [.start, .established ⟨1⟩, .method .uniStreamCreated ⟨1⟩ (.ok 2),
        .sink (.sendBytes ⟨⟨2⟩, [104, 105], false⟩), .sink (.terminateSession ⟨⟨1⟩, 0, ""⟩),
        .pollTerminate, .pollTerminate, .close, .pollSend, .writeFails "closed"] = some s ∧
    s.effects = [.close 1 ⟨1⟩, .writeFailed 0 ⟨1⟩] ∧ s.result = some (.error "closed")) ∧
  ∃ s, (machine Unit).run (HandlersState.init Unit)
      [.start, .established ⟨1⟩, .method .uniStreamCreated ⟨1⟩ (.ok 2),
        .sink (.terminateSession ⟨⟨1⟩, 0, ""⟩), .sink (.sendBytes ⟨⟨2⟩, [104, 105], false⟩),
        .pollSend, .pollSend, .write 2, .written, .pollTerminate, .close] = some s ∧
    s.effects = [.write 1 ⟨1⟩ [104, 105], .close 0 ⟨1⟩] ∧ s.result = none
  := ⟨⟨_, rfl, rfl, rfl⟩, _, rfl, rfl, rfl⟩

/-- Bytes are sent on a stream of a session, then the session is terminated, and then bytes are to
be sent on the stream again.  The sink yields each command when the handlers are through with the
one before. -/
theorem inPace_three :
  (machine Unit).Along InPace (HandlersState.init Unit)
    ([.start, .established ⟨1⟩, .method .uniStreamCreated ⟨1⟩ (.ok 2)] ++
      (.sink (.sendBytes ⟨⟨2⟩, [104, 105], false⟩) ::
        ([.pollTerminate, .pollSend, .write 2, .written] ++
          (.sink (.terminateSession ⟨⟨1⟩, 0, ""⟩) ::
            ([.pollTerminate, .close, .pollSend] ++ (.sink (.sendBytes ⟨⟨2⟩, [106], false⟩) ::
              [.pollTerminate, .pollSend, .writeFails "closed"]))))))
  := by
  apply (machine Unit).along_append.mpr
  refine ⟨(machine Unit).along_of_forall (by simp [InPace]) _, ?_⟩
  rintro s ⟨⟩
  refine ⟨quiescent_of_next nofun rfl rfl rfl rfl rfl, ?_⟩
  rintro s ⟨⟩
  apply (machine Unit).along_append.mpr
  refine ⟨(machine Unit).along_of_forall (by simp [InPace]) _, ?_⟩
  rintro s ⟨⟩
  refine ⟨quiescent_of_next nofun rfl rfl rfl rfl rfl, ?_⟩
  rintro s ⟨⟩
  apply (machine Unit).along_append.mpr
  refine ⟨(machine Unit).along_of_forall (by simp [InPace]) _, ?_⟩
  rintro s ⟨⟩
  refine ⟨quiescent_of_next nofun rfl rfl rfl rfl rfl, ?_⟩
  rintro s ⟨⟩
  apply (machine Unit).along_of_forall
  simp [InPace]

/-- The bytes of the first command are written before the session is closed, and those of the last
are not. -/
theorem commands_in_order_three :
  ∃ s, (machine Unit).run (HandlersState.init Unit)
      ([.start, .established ⟨1⟩, .method .uniStreamCreated ⟨1⟩ (.ok 2)] ++
        (.sink (.sendBytes ⟨⟨2⟩, [104, 105], false⟩) ::
          ([.pollTerminate, .pollSend, .write 2, .written] ++
            (.sink (.terminateSession ⟨⟨1⟩, 0, ""⟩) ::
              ([.pollTerminate, .close, .pollSend] ++ (.sink (.sendBytes ⟨⟨2⟩, [106], false⟩) ::
                [.pollTerminate, .pollSend, .writeFails "closed"])))))) = some s ∧
    s.effects = [.write 0 ⟨1⟩ [104, 105], .close 1 ⟨1⟩, .writeFailed 2 ⟨1⟩] ∧
    s.result = some (.error "closed") ∧ InOrder s ∧ SessionsInOrder s
  := by
  obtain ⟨s, hs⟩ : ∃ s, (machine Unit).run (HandlersState.init Unit)
      ([.start, .established ⟨1⟩, .method .uniStreamCreated ⟨1⟩ (.ok 2)] ++
        (.sink (.sendBytes ⟨⟨2⟩, [104, 105], false⟩) ::
          ([.pollTerminate, .pollSend, .write 2, .written] ++
            (.sink (.terminateSession ⟨⟨1⟩, 0, ""⟩) ::
              ([.pollTerminate, .close, .pollSend] ++ (.sink (.sendBytes ⟨⟨2⟩, [106], false⟩) ::
                [.pollTerminate, .pollSend, .writeFails "closed"])))))) = some s := ⟨_, rfl⟩
  have heffects := congrArg (Option.map HandlersState.effects) hs
  have hresult := congrArg (Option.map HandlersState.result) hs
  exact ⟨s, hs, (Option.some.inj heffects).symm, (Option.some.inj hresult).symm,
    (commands_in_order hs).1, (commands_in_order hs).2 inPace_three⟩

end HandlersState

end WebTransport

end Cyclers
