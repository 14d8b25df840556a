import Cyclers.WebTransport.Handlers

/-!
# The order of the effects of a handler

Each handler takes its commands in the order of the sink, one after another.  The bytes of a
command are written before those of the next one, sessions are closed in the order of their
commands, and nothing is written on a session once it is closed.
-/

open Async

namespace Cyclers

namespace WebTransport

universe u

variable {F : Type u}

/-- The handler awaits the next command, or has returned without an error. -/
def Handler.Idle {α : Type} (handler : Handler α) : Prop :=
  handler = .next ∨ handler = .returned (.ok ())

theorem Handler.not_idle_busy {α : Type} (x : α) :
  ¬ (Handler.busy x).Idle
  := by
  rintro (h | h) <;> cases h

theorem Handler.not_idle_error {α : Type} (err : BoxError) :
  ¬ (Handler.returned (.error err) : Handler α).Idle
  := by
  rintro (h | h) <;> cases h

/-- The number of the command to send bytes that has an effect. -/
def Effect.sends : Effect → Option ℕ
  | .write i _ _ => some i
  | .writeFailed i _ => some i
  | .close _ _ => none

/-- The number of the command to terminate a session that has an effect. -/
def Effect.closes : Effect → Option ℕ
  | .close j _ => some j
  | _ => none

/-- The bytes that an effect writes for the command number `i`. -/
def Effect.bytes (i : ℕ) : Effect → List UInt8
  | .write k _ bytes => if k = i then bytes else []
  | _ => []

@[simp]
theorem Effect.bytes_writeFailed (i k : ℕ) (session : SessionId) :
  (writeFailed k session).bytes i = []
  := rfl

@[simp]
theorem Effect.bytes_close (i k : ℕ) (session : SessionId) :
  (close k session).bytes i = []
  := rfl

/-- The bytes written for the command number `i`. -/
def bytesOf (i : ℕ) (effects : List Effect) : List UInt8 :=
  effects.flatMap (Effect.bytes i)

@[simp]
theorem bytesOf_nil (i : ℕ) :
  bytesOf i [] = []
  := rfl

@[simp]
theorem bytesOf_concat (i : ℕ) (effects : List Effect) (e : Effect) :
  bytesOf i (effects ++ [e]) = bytesOf i effects ++ e.bytes i
  := by
  simp [bytesOf]

/-- An effect of another command writes nothing for the command number `i`. -/
theorem Effect.bytes_eq_nil {i : ℕ} {e : Effect} (h : e.sends ≠ some i) :
  e.bytes i = []
  := by
  cases e with
  | write k session bytes =>
      apply if_neg
      rintro rfl
      exact h rfl
  | _ => rfl

theorem bytesOf_eq_nil {i : ℕ} {effects : List Effect} (h : ∀ e ∈ effects, e.sends ≠ some i) :
  bytesOf i effects = []
  := by
  apply List.flatMap_eq_nil_iff.mpr
  intro e he
  apply Effect.bytes_eq_nil (h e he)

namespace HandlersState

/-- The handler that sends bytes is through with the command number `i`. -/
def Done (s : HandlersState F) (i : ℕ) : Prop :=
  i + 1 < s.sent ∨ i + 1 = s.sent ∧ s.send.Idle

/-- When one more command is taken, the handler that awaited it was through with the others. -/
theorem done_of_next {s : HandlersState F} (hn : s.send = .next) {i : ℕ} (hi : i < s.sent) :
  s.Done i
  := by
  rcases Nat.lt_or_ge (i + 1) s.sent with hlt | hge
  · exact .inl hlt
  · exact .inr ⟨Nat.le_antisymm hi hge, .inl hn⟩

/-- The handler is not through with the command it is busy with, which is the last one taken. -/
theorem Done.lt_of_busy {s : HandlersState F} {i : ℕ} (h : s.Done i) {w : Writing}
    (hw : s.send = .busy w) :
  i + 1 < s.sent
  := by
  rcases h with h | ⟨-, hidle⟩
  · exact h
  · rw [hw] at hidle
    cases Handler.not_idle_busy w hidle

/-! ### Sending bytes -/

/-- The invariant of the handler that sends bytes: the bytes of the commands it is through with are
written, and those of the command it is busy with are written but for what is left; and it returns
without an error only at the end of the sink, or after a command that finishes its stream. -/
structure SendInv (s : HandlersState F) : Prop where
  sent_le : s.sent ≤ s.sink.length
  busy : ∀ w, s.send = .busy w → w.number + 1 = s.sent ∧
    s.sink[w.number]? = some (.sendBytes w.command) ∧
    bytesOf w.number s.effects ++ w.left = w.command.bytes ∧ (w.number, w.session) ∈ s.found
  done : ∀ i command, s.sink[i]? = some (.sendBytes command) → s.Done i →
    bytesOf i s.effects = command.bytes
  part : ∀ i command, s.sink[i]? = some (.sendBytes command) →
    bytesOf i s.effects <+: command.bytes
  sends : ∀ e ∈ s.effects, ∀ i, e.sends = some i → i < s.sent
  found : ∀ i session, (i, session) ∈ s.found →
    i < s.sent ∧ ∃ command, s.sink[i]? = some (.sendBytes command)
  target : ∀ i session, .writeFailed i session ∈ s.effects → (i, session) ∈ s.found
  order : (s.effects.filterMap Effect.sends).Pairwise (· ≤ ·)
  failed : ∀ err, s.send = .returned (.error err) → err = "invalid stream ID" ∨
    err = "stream is not a writable stream" ∨
    ∃ l i session, s.effects = l ++ [.writeFailed i session]
  ended : s.send = .returned (.ok ()) → (s.sinkEnded = true ∧ s.sink.length ≤ s.sent) ∨
    ∃ i < s.sent, ∃ command, s.sink[i]? = some (.sendBytes command) ∧ command.finished = true
  unstarted : s.start = none → s.send = .next

theorem SendInv.init :
  SendInv (init F)
  := by
  constructor <;> simp [HandlersState.init]

/-- Nothing is written for a command that has not been taken. -/
theorem SendInv.bytesOf_eq_nil {s : HandlersState F} (h : SendInv s) {i : ℕ} (hi : s.sent ≤ i) :
  bytesOf i s.effects = []
  := by
  apply WebTransport.bytesOf_eq_nil
  intro e he heq
  have hlt := h.sends e he i heq
  omega

/-- A command more in the sink keeps the invariant of the handler that sends bytes. -/
theorem SendInv.sink {s : HandlersState F} (h : SendInv s) (he : s.sinkEnded = false)
    (command : WebTransportCommand F) :
  SendInv { s with sink := s.sink ++ [command] }
  := by
  have hget : ∀ i, i < s.sent → (s.sink ++ [command])[i]? = s.sink[i]? := by
    intro i hi
    apply List.getElem?_append_left (Nat.lt_of_lt_of_le hi h.sent_le)
  constructor
  · rw [List.length_append]
    apply Nat.le_add_right_of_le h.sent_le
  · intro w hw
    obtain ⟨hn, hsink, hbytes, hfound⟩ := h.busy w hw
    refine ⟨hn, ?_, hbytes, hfound⟩
    rw [hget _ (by omega)]
    exact hsink
  · intro i command' hsink hdone
    have hlt : i < s.sent := by
      rcases hdone with hdone | ⟨hdone, -⟩ <;> dsimp only at hdone <;> omega
    rw [hget i hlt] at hsink
    apply h.done i command' hsink hdone
  · intro i command' hsink
    by_cases hi : i < s.sent
    · rw [hget i hi] at hsink
      apply h.part i command' hsink
    · rw [h.bytesOf_eq_nil (Nat.le_of_not_lt hi)]
      apply List.nil_prefix
  · exact h.sends
  · intro i session hmem
    obtain ⟨hlt, hsink⟩ := h.found i session hmem
    rw [hget i hlt]
    exact ⟨hlt, hsink⟩
  · exact h.target
  · exact h.order
  · exact h.failed
  · intro hs
    rcases h.ended hs with ⟨hend, -⟩ | ⟨i, hi, command', hsink, hfin⟩
    · cases he.symm.trans hend
    · refine .inr ⟨i, hi, command', ?_, hfin⟩
      dsimp only
      rw [hget i hi]
      exact hsink
  · exact h.unstarted

/-- A handler that takes one more command, and finds a stream for it or not, keeps the invariant,
when it is not through with a command to send bytes at once. -/
theorem SendInv.take {s : HandlersState F} (h : SendInv s) (hr : s.Running) (hn : s.send = .next)
    {command : WebTransportCommand F} (hget : s.sink[s.sent]? = some command)
    (send : Handler Writing) (found : List (ℕ × SessionId))
    (hbusy : ∀ w, send = .busy w → w.number = s.sent ∧ command = .sendBytes w.command ∧
      w.left = w.command.bytes ∧ (w.number, w.session) ∈ found)
    (hidle : send.Idle → send = .next ∧ ∀ command', command ≠ .sendBytes command')
    (hfound : ∀ i session, (i, session) ∈ found →
      i = s.sent ∧ ∃ command', command = .sendBytes command')
    (hfailed : ∀ err, send = .returned (.error err) →
      err = "invalid stream ID" ∨ err = "stream is not a writable stream") :
  SendInv { s with sent := s.sent + 1, send := send, found := s.found ++ found }
  := by
  constructor
  · exact (List.getElem?_eq_some_iff.mp hget).1
  · rintro w rfl
    obtain ⟨hnumber, rfl, hleft, hmem⟩ := hbusy w rfl
    refine ⟨congrArg (· + 1) hnumber, ?_, ?_, List.mem_append_right _ hmem⟩
    · rw [hnumber]
      exact hget
    · rw [hnumber, h.bytesOf_eq_nil (Nat.le_refl _), List.nil_append, hleft]
  · intro i command' hsink hdone
    rcases hdone with hdone | ⟨hdone, hsend⟩
    · apply h.done i command' hsink (done_of_next hn (Nat.lt_of_succ_lt_succ hdone))
    · obtain rfl : i = s.sent := Nat.succ.inj hdone
      dsimp only at hsink
      rw [hget] at hsink
      cases (hidle hsend).2 command' (Option.some.inj hsink)
  · exact h.part
  · intro e he i heq
    apply Nat.lt_succ_of_lt (h.sends e he i heq)
  · intro i session hmem
    rcases List.mem_append.mp hmem with hmem | hmem
    · exact ⟨Nat.lt_succ_of_lt (h.found i session hmem).1, (h.found i session hmem).2⟩
    · obtain ⟨rfl, command', rfl⟩ := hfound i session hmem
      exact ⟨Nat.lt_succ_self _, command', hget⟩
  · intro i session hmem
    apply List.mem_append_left _ (h.target i session hmem)
  · exact h.order
  · intro err herr
    rcases hfailed err herr with herr | herr
    · exact .inl herr
    · exact .inr (.inl herr)
  · intro hs
    cases (hidle (.inr hs)).1.symm.trans hs
  · exact fun hstart => absurd hstart hr.1

/-- An effect of the command that the handler is busy with keeps the invariant, when what has
been written is still some of its bytes and the handler is not through with it at once. -/
theorem SendInv.effect {s : HandlersState F} (h : SendInv s) (hr : s.Running) {w : Writing}
    (hw : s.send = .busy w) {e : Effect} (he : e.sends = some w.number) (send : Handler Writing)
    (hbusy : ∀ w', send = .busy w' → w'.number = w.number ∧ w'.command = w.command ∧
      w'.session = w.session ∧ e.bytes w.number ++ w'.left = w.left)
    (hidle : ¬ send.Idle) (hbytes : e.bytes w.number <+: w.left)
    (htarget : ∀ i session, e = .writeFailed i session → i = w.number ∧ session = w.session)
    (hfailed : ∀ err, send = .returned (.error err) → e = .writeFailed w.number w.session) :
  SendInv { s with send := send, effects := s.effects ++ [e] }
  := by
  obtain ⟨hn, hget, hwritten, hmem⟩ := h.busy w hw
  have hother : ∀ i, i ≠ w.number → bytesOf i (s.effects ++ [e]) = bytesOf i s.effects := by
    intro i hi
    rw [bytesOf_concat, Effect.bytes_eq_nil, List.append_nil]
    rw [he]
    intro heq
    exact hi (Option.some.inj heq).symm
  constructor
  · exact h.sent_le
  · rintro ⟨number, command, session, left⟩ rfl
    obtain ⟨rfl, rfl, rfl, hleft⟩ := hbusy _ rfl
    refine ⟨hn, hget, ?_, hmem⟩
    rw [bytesOf_concat, List.append_assoc, hleft, hwritten]
  · intro i command hsink hdone
    rcases hdone with hdone | ⟨-, hsend⟩
    · have hne : i ≠ w.number := by
        dsimp only at hdone
        omega
      rw [hother i hne]
      apply h.done i command hsink (.inl hdone)
    · cases hidle hsend
  · intro i command hsink
    by_cases hi : i = w.number
    · subst hi
      dsimp only at hsink
      rw [hget] at hsink
      cases hsink
      rw [bytesOf_concat, ← hwritten]
      apply (List.prefix_append_right_inj _).mpr hbytes
    · rw [hother i hi]
      apply h.part i command hsink
  · intro e' he' i heq
    rcases List.mem_append.mp he' with he' | he'
    · apply h.sends e' he' i heq
    · obtain rfl := List.mem_singleton.mp he'
      rw [he] at heq
      obtain rfl := Option.some.inj heq
      dsimp only
      omega
  · exact h.found
  · intro i session hmem'
    rcases List.mem_append.mp hmem' with hmem' | hmem'
    · apply h.target i session hmem'
    · obtain ⟨rfl, rfl⟩ := htarget i session (List.mem_singleton.mp hmem').symm
      exact hmem
  · rw [List.filterMap_append, List.filterMap_cons_some he, List.filterMap_nil,
      List.pairwise_append]
    refine ⟨h.order, List.pairwise_singleton _ _, ?_⟩
    intro k hk k' hk'
    obtain ⟨e', he', hs⟩ := List.mem_filterMap.mp hk
    have hlt := h.sends e' he' k hs
    obtain rfl := List.mem_singleton.mp hk'
    omega
  · intro err herr
    rw [hfailed err herr]
    exact .inr (.inr ⟨s.effects, w.number, w.session, rfl⟩)
  · exact fun hs => absurd (.inr hs) hidle
  · exact fun hstart => absurd hstart hr.1

/-- A handler that is done with the command it was busy with, of which no bytes are left, is
through with it. -/
theorem SendInv.written {s : HandlersState F} (h : SendInv s) (hr : s.Running) {w : Writing}
    (hw : s.send = .busy w) (hl : w.left = []) {send : Handler Writing}
    (hsend : (w.command.finished = true ∧ send = .returned (.ok ())) ∨ send = .next) :
  SendInv { s with send := send }
  := by
  obtain ⟨hn, hget, hbytes, -⟩ := h.busy w hw
  refine ⟨h.sent_le, ?_, ?_, h.part, h.sends, h.found, h.target, h.order, ?_, ?_,
    fun hstart => absurd hstart hr.1⟩
  · intro w' hw'
    dsimp only at hw'
    rcases hsend with ⟨-, rfl⟩ | rfl <;> cases hw'
  · intro i command hi hdone
    rcases hdone with hdone | ⟨hdone, -⟩
    · apply h.done i command hi (.inl hdone)
    · obtain rfl : i = w.number := by
        dsimp only at hdone
        omega
      dsimp only at hi
      rw [hget] at hi
      cases hi
      rw [← hbytes, hl, List.append_nil]
  · intro err hf
    dsimp only at hf
    rcases hsend with ⟨-, rfl⟩ | rfl <;> cases hf
  · intro hs
    rcases hsend with ⟨hfin, -⟩ | rfl
    · refine .inr ⟨w.number, ?_, w.command, hget, hfin⟩
      dsimp only
      omega
    · cases hs

/-- A session that is closed while no handler has failed keeps the invariant of the handler that
sends bytes. -/
theorem SendInv.close {s : HandlersState F} (h : SendInv s) (hr : s.Running)
    (terminate : Handler (ℕ × TerminateSessionCommand)) (closed : SessionId → Bool) (j : ℕ)
    (session : SessionId) :
  SendInv { s with
    terminate := terminate, closed := closed, effects := s.effects ++ [.close j session] }
  := by
  have hbytes : ∀ i, bytesOf i (s.effects ++ [.close j session]) = bytesOf i s.effects := by
    simp
  refine ⟨h.sent_le, ?_, ?_, ?_, ?_, h.found, ?_, ?_, ?_, h.ended, h.unstarted⟩
  · intro w hw
    rw [hbytes]
    apply h.busy w hw
  · intro i command hi hdone
    rw [hbytes]
    apply h.done i command hi hdone
  · intro i command hi
    rw [hbytes]
    apply h.part i command hi
  · intro e he i heq
    rcases List.mem_append.mp he with he | he
    · apply h.sends e he i heq
    · cases List.mem_singleton.mp he
      cases heq
  · intro i session' hmem
    rcases List.mem_append.mp hmem with hmem | hmem
    · apply h.target i session' hmem
    · cases List.mem_singleton.mp hmem
  · rw [List.filterMap_append, List.filterMap_cons_none rfl, List.filterMap_nil, List.append_nil]
    exact h.order
  · intro err hf
    cases not_failed hr.2 err hf

/-- An event keeps the invariant of the handler that sends bytes. -/
theorem SendInv.step {s t : HandlersState F} {e : HandlersEvent F} (h : SendInv s)
    (hs : Step s e t) :
  SendInv t
  := by
  cases hs with
  | sink command he => apply h.sink he
  | takeSend command tx hr hn hget htx =>
      apply h.take hr hn hget
      · intro w hw
        cases hw
        exact ⟨rfl, rfl, rfl, List.mem_singleton_self _⟩
      · intro hidle
        cases Handler.not_idle_busy _ hidle
      · intro i session hmem
        cases List.mem_singleton.mp hmem
        exact ⟨rfl, command, rfl⟩
      · exact nofun
  | invalidStream command err hr hn hget herr =>
      rw [← List.append_nil s.found]
      apply h.take hr hn hget _ []
      · intro w hw
        cases hw
      · intro hidle
        cases Handler.not_idle_error _ hidle
      · exact nofun
      · intro err' heq
        cases heq
        apply lookup_eq_error herr
  | skipSend command hr hn hget hne =>
      rw [← List.append_nil s.found]
      apply h.take hr hn hget s.send []
      · intro w hw
        rw [hn] at hw
        cases hw
      · exact fun _ => ⟨hn, hne⟩
      · exact nofun
      · intro err herr
        rw [hn] at herr
        cases herr
  | endSend hr hn hget he =>
      refine ⟨h.sent_le, nofun, ?_, h.part, h.sends, h.found, h.target, h.order, nofun,
        fun _ => .inl ⟨he, List.getElem?_eq_none_iff.mp hget⟩, fun hstart => absurd hstart hr.1⟩
      intro i command hi hdone
      apply h.done i command hi
      rcases hdone with hdone | ⟨hdone, -⟩
      · exact .inl hdone
      · exact .inr ⟨hdone, .inl hn⟩
  | write w n hr hw hc =>
      have hbytes : (Effect.write w.number w.session (w.left.take n)).bytes w.number =
          w.left.take n := if_pos rfl
      apply h.effect hr hw rfl
      · intro w' hw'
        cases hw'
        refine ⟨rfl, rfl, rfl, ?_⟩
        rw [hbytes, List.take_append_drop]
      · apply Handler.not_idle_busy
      · rw [hbytes]
        apply List.take_prefix
      · exact nofun
      · exact nofun
  | writeFails w err hr hw =>
      apply h.effect hr hw rfl
      · intro w' hw'
        cases hw'
      · apply Handler.not_idle_error
      · apply List.nil_prefix
      · intro i session heq
        cases heq
        exact ⟨rfl, rfl⟩
      · exact fun _ _ => rfl
  | written w send hr hw hl hsend => apply h.written hr hw hl hsend
  | close number command hr hb => apply h.close hr
  | start hn =>
      exact ⟨h.sent_le, h.busy, h.done, h.part, h.sends, h.found, h.target, h.order, h.failed, h.ended,
        fun hstart => absurd hstart (Option.some_ne_none _)⟩
  | sinkEnd =>
      refine ⟨h.sent_le, h.busy, h.done, h.part, h.sends, h.found, h.target, h.order, h.failed, ?_,
        h.unstarted⟩
      intro hs
      apply (h.ended hs).imp_left
      exact fun ⟨_, hle⟩ => ⟨rfl, hle⟩
  | _ =>
      exact ⟨h.sent_le, h.busy, h.done, h.part, h.sends, h.found, h.target, h.order, h.failed, h.ended,
        h.unstarted⟩

/-! ### Terminating sessions -/

/-- The invariant of the handler that terminates sessions: those it has closed are closed, in the
order of their commands, and nothing is written on them any more.  Of the commands that it has not
missed, it has closed the session of each one it is past, unless it is busy with it or has
failed. -/
structure TerminateInv (s : HandlersState F) : Prop where
  terminated_le : s.terminated ≤ s.sink.length
  busy : ∀ j command, s.terminate = .busy (j, command) →
    j < s.terminated ∧ s.sink[j]? = some (.terminateSession command)
  closes : ∀ j session, .close j session ∈ s.effects → j < s.terminated ∧
    (∃ command, s.sink[j]? = some (.terminateSession command) ∧ command.sessionId = session) ∧
    ∀ j' command, s.terminate = .busy (j', command) → j < j'
  order : (s.effects.filterMap Effect.closes).Pairwise (· < ·)
  closed : ∀ session, s.closed session = true ↔ ∃ j, .close j session ∈ s.effects
  silent : s.effects.Pairwise fun e e' =>
    ∀ j session, e = .close j session → ∀ i bytes, e' ≠ .write i session bytes
  failed : ∀ err, s.terminate = .returned (.error err) → err = "invalid session ID"
  through : ∀ n, s.start = some n → ∀ j command, n ≤ j → j < s.terminated →
    s.sink[j]? = some (.terminateSession command) → s.closed command.sessionId = true ∨
      s.terminate = .busy (j, command) ∨ ∃ err, s.terminate = .returned (.error err)
  ended : s.terminate = .returned (.ok ()) → s.sinkEnded = true ∧ s.sink.length ≤ s.terminated

theorem TerminateInv.init :
  TerminateInv (init F)
  := by
  constructor <;> simp [HandlersState.init]

/-- An effect that closes nothing keeps the invariant of the handler that terminates sessions,
when it writes only on a session that is not closed. -/
theorem TerminateInv.concat {s : HandlersState F} (h : TerminateInv s) {e : Effect}
    (he : e.closes = none)
    (hopen : ∀ i session bytes, e = .write i session bytes → s.closed session = false)
    (send : Handler Writing) :
  TerminateInv { s with send := send, effects := s.effects ++ [e] }
  := by
  have hmem : ∀ j session, .close j session ∈ s.effects ++ [e] ↔ .close j session ∈ s.effects := by
    intro j session
    rw [List.mem_append, List.mem_singleton]
    apply or_iff_left
    rintro rfl
    cases he
  refine ⟨h.terminated_le, h.busy, ?_, ?_, ?_, ?_, h.failed, h.through, h.ended⟩
  · intro j session hj
    apply h.closes j session ((hmem j session).mp hj)
  · rw [List.filterMap_append, List.filterMap_cons_none he, List.filterMap_nil, List.append_nil]
    exact h.order
  · intro session
    rw [h.closed]
    apply exists_congr
    intro j
    exact (hmem j session).symm
  · apply List.pairwise_append.mpr
    refine ⟨h.silent, List.pairwise_singleton _ _, ?_⟩
    rintro _ hj _ he' j session rfl i bytes rfl
    obtain rfl := List.mem_singleton.mp he'
    have hclosed := (h.closed session).mpr ⟨j, hj⟩
    rw [hopen i session bytes rfl] at hclosed
    cases hclosed

/-- A command more in the sink keeps the invariant of the handler that terminates sessions. -/
theorem TerminateInv.sink {s : HandlersState F} (h : TerminateInv s) (he : s.sinkEnded = false)
    (command : WebTransportCommand F) :
  TerminateInv { s with sink := s.sink ++ [command] }
  := by
  have hold : ∀ (j : ℕ) command', s.sink[j]? = some command' →
      (s.sink ++ [command])[j]? = some command' := by
    intro j command' hget
    rw [List.getElem?_append_left (List.getElem?_eq_some_iff.mp hget).1]
    exact hget
  refine ⟨?_, ?_, ?_, h.order, h.closed, h.silent, h.failed, ?_, ?_⟩
  · rw [List.length_append]
    apply Nat.le_add_right_of_le h.terminated_le
  · intro j command' hb
    obtain ⟨hlt, hget⟩ := h.busy j command' hb
    exact ⟨hlt, hold _ _ hget⟩
  · intro j session hj
    obtain ⟨hlt, ⟨command', hget, hses⟩, hlast⟩ := h.closes j session hj
    exact ⟨hlt, ⟨command', hold _ _ hget, hses⟩, hlast⟩
  · intro n hn j command' hle hlt hget
    dsimp only at hget
    rw [List.getElem?_append_left (Nat.lt_of_lt_of_le hlt h.terminated_le)] at hget
    apply h.through n hn j command' hle hlt hget
  · intro ht
    cases he.symm.trans (h.ended ht).1

/-- A handler that takes one more command, to close its session or not, keeps the invariant. -/
theorem TerminateInv.take {s : HandlersState F} (h : TerminateInv s) (hn : s.terminate = .next)
    {command : WebTransportCommand F} (hget : s.sink[s.terminated]? = some command)
    (terminate : Handler (ℕ × TerminateSessionCommand))
    (hbusy : ∀ j command', terminate = .busy (j, command') →
      j = s.terminated ∧ command = .terminateSession command')
    (hfailed : ∀ err, terminate = .returned (.error err) → err = "invalid session ID")
    (hthrough : ∀ command', command = .terminateSession command' →
      terminate = .busy (s.terminated, command') ∨ ∃ err, terminate = .returned (.error err))
    (hok : terminate ≠ .returned (.ok ())) :
  TerminateInv { s with terminated := s.terminated + 1, terminate := terminate }
  := by
  refine ⟨(List.getElem?_eq_some_iff.mp hget).1, ?_, ?_, h.order, h.closed, h.silent, hfailed, ?_,
    fun ht => absurd ht hok⟩
  · intro j command' hb
    obtain ⟨rfl, rfl⟩ := hbusy j command' hb
    exact ⟨Nat.lt_succ_self _, hget⟩
  · intro j session hj
    obtain ⟨hlt, hcommand, -⟩ := h.closes j session hj
    refine ⟨Nat.lt_succ_of_lt hlt, hcommand, ?_⟩
    intro j' command' hb
    rw [(hbusy j' command' hb).1]
    exact hlt
  · intro n hstart j command' hle hlt hj
    rcases Nat.lt_succ_iff_lt_or_eq.mp hlt with hlt | rfl
    · rcases h.through n hstart j command' hle hlt hj with hc | hb | ⟨err, herr⟩
      · exact .inl hc
      · cases hn.symm.trans hb
      · cases hn.symm.trans herr
    · dsimp only at hj
      rw [hget] at hj
      exact .inr (hthrough command' (Option.some.inj hj))

/-- The session of the command that the handler is busy with is closed, after all others. -/
theorem TerminateInv.close {s : HandlersState F} (h : TerminateInv s) {number : ℕ}
    {command : TerminateSessionCommand} (hb : s.terminate = .busy (number, command)) :
  TerminateInv { s with
    terminate := .next
    closed := Function.update s.closed command.sessionId true
    effects := s.effects ++ [.close number command.sessionId] }
  := by
  obtain ⟨hlt, hget⟩ := h.busy number command hb
  refine ⟨h.terminated_le, nofun, ?_, ?_, ?_, ?_, nofun, ?_, nofun⟩
  · intro j session hj
    rcases List.mem_append.mp hj with hj | hj
    · exact ⟨(h.closes j session hj).1, (h.closes j session hj).2.1, nofun⟩
    · cases List.mem_singleton.mp hj
      exact ⟨hlt, ⟨command, hget, rfl⟩, nofun⟩
  · rw [List.filterMap_append, List.pairwise_append]
    refine ⟨h.order, List.pairwise_singleton _ _, ?_⟩
    intro j hj j' hj'
    cases List.mem_singleton.mp hj'
    obtain ⟨e, he, hc⟩ := List.mem_filterMap.mp hj
    cases e with
    | close k session =>
        cases hc
        apply (h.closes _ session he).2.2 number command hb
    | _ => cases hc
  · intro session
    by_cases hses : session = command.sessionId
    · subst hses
      simp
    · dsimp only
      rw [Function.update_of_ne hses, h.closed]
      apply exists_congr
      intro j
      simp [hses]
  · rw [List.pairwise_append]
    refine ⟨h.silent, List.pairwise_singleton _ _, ?_⟩
    rintro _ _ _ he' j session - i bytes rfl
    cases List.mem_singleton.mp he'
  · intro n hstart j command' hle hlt' hj
    left
    by_cases hses : command'.sessionId = command.sessionId
    · rw [hses]
      apply Function.update_self
    · dsimp only
      rw [Function.update_of_ne hses]
      rcases h.through n hstart j command' hle hlt' hj with hc | hb' | ⟨err, herr⟩
      · exact hc
      · cases hb.symm.trans hb'
        cases hses rfl
      · cases hb.symm.trans herr

/-- An event keeps the invariant of the handler that terminates sessions. -/
theorem TerminateInv.step {s t : HandlersState F} {e : HandlersEvent F} (h : TerminateInv s)
    (hs : Step s e t) :
  TerminateInv t
  := by
  cases hs with
  | sink command he => apply h.sink he
  | sinkEnd =>
      exact ⟨h.terminated_le, h.busy, h.closes, h.order, h.closed, h.silent, h.failed, h.through,
        fun ht => ⟨rfl, (h.ended ht).2⟩⟩
  | start hn =>
      refine ⟨Nat.le_refl _, ?_, ?_, h.order, h.closed, h.silent, h.failed, ?_, ?_⟩
      · intro j command hb
        obtain ⟨-, hget⟩ := h.busy j command hb
        exact ⟨(List.getElem?_eq_some_iff.mp hget).1, hget⟩
      · intro j session hj
        obtain ⟨-, ⟨command, hget, hses⟩, hlast⟩ := h.closes j session hj
        exact ⟨(List.getElem?_eq_some_iff.mp hget).1, ⟨command, hget, hses⟩, hlast⟩
      · rintro n ⟨⟩ j command hle hlt
        cases Nat.not_lt_of_le hle hlt
      · exact fun ht => ⟨(h.ended ht).1, Nat.le_refl _⟩
  | takeTerminate command hr hn hget =>
      apply h.take hn hget
      · intro j command' hb
        cases hb
        exact ⟨rfl, rfl⟩
      · exact nofun
      · intro command' heq
        cases heq
        exact .inl rfl
      · intro heq
        cases heq
  | invalidSession command hr hn hget hi =>
      apply h.take hn hget
      · exact nofun
      · intro err heq
        cases heq
        rfl
      · exact fun _ _ => .inr ⟨_, rfl⟩
      · intro heq
        cases heq
  | skipTerminate command hr hn hget hne =>
      apply h.take hn hget s.terminate
      · intro j command' hb
        rw [hn] at hb
        cases hb
      · apply h.failed
      · exact fun command' heq => absurd heq (hne command')
      · rw [hn]
        intro heq
        cases heq
  | endTerminate hr hn hget he =>
      refine ⟨h.terminated_le, nofun, ?_, h.order, h.closed, h.silent, nofun, ?_,
        fun _ => ⟨he, List.getElem?_eq_none_iff.mp hget⟩⟩
      · intro j session hj
        exact ⟨(h.closes j session hj).1, (h.closes j session hj).2.1, nofun⟩
      · intro n hstart j command hle hlt hj
        rcases h.through n hstart j command hle hlt hj with hc | hb | ⟨err, herr⟩
        · exact .inl hc
        · cases hn.symm.trans hb
        · cases hn.symm.trans herr
  | close number command hr hb => apply h.close hb
  | write w n hr hw hc =>
      apply h.concat rfl
      intro i session bytes heq
      cases heq
      exact hc
  | writeFails w err hr hw =>
      apply h.concat rfl
      intro i session bytes heq
      cases heq
  | _ =>
      exact ⟨h.terminated_le, h.busy, h.closes, h.order, h.closed, h.silent, h.failed, h.through,
        h.ended⟩

/-- The invariant of the handler that sends bytes holds of every state reached. -/
theorem SendInv.of_run {tr : List (HandlersEvent F)} {s : HandlersState F}
    (h : (machine F).run (HandlersState.init F) tr = some s) :
  SendInv s
  := by
  apply (machine F).run_invariant SendInv.init _ h
  intro s e t hs ht
  apply hs.step (step_of_machine ht)

/-- The invariant of the handler that terminates sessions holds of every state reached. -/
theorem TerminateInv.of_run {tr : List (HandlersEvent F)} {s : HandlersState F}
    (h : (machine F).run (HandlersState.init F) tr = some s) :
  TerminateInv s
  := by
  apply (machine F).run_invariant TerminateInv.init _ h
  intro s e t hs ht
  apply hs.step (step_of_machine ht)

end HandlersState

end WebTransport

end Cyclers
