import Cyclers.WebTransport.StreamMap

/-!
# The handlers of the driver

The driver runs three handlers of commands at the same time: one configures the client, one
terminates sessions, and one sends bytes.  Each takes the commands of its kind from the sink in
order, one after another.  The first one to fail ends them all.

The handler that sends bytes has the subscription to the sink that the driver was called with.  The
others subscribe when the driver is polled for the first time, and miss the commands that the sink
has yielded before, as it does to a stream of the source.
-/

open Async

namespace Cyclers

namespace WebTransport

universe u

variable {F : Type u}

/-- A handler: it awaits the next command, it is busy with one, or it has returned. -/
inductive Handler (α : Type) where
  | next
  | busy : α → Handler α
  | returned : Except BoxError Unit → Handler α

/-- A command whose bytes are being written: its number in the sink, the session of its stream,
and the bytes that are left. -/
structure Writing where
  number : ℕ
  command : SendBytesCommand
  session : SessionId
  left : List UInt8

/-- What is done to a session for the command of some number in the sink: bytes are written on
one of its streams, a write fails, or it is closed. -/
inductive Effect where
  | write : ℕ → SessionId → List UInt8 → Effect
  | writeFailed : ℕ → SessionId → Effect
  | close : ℕ → SessionId → Effect
  deriving DecidableEq

/-- The handlers: the commands the sink has yielded and whether it has ended; how many it had
yielded when the driver was polled for the first time, if it has been; the sessions and the streams;
what the handler that configures the client has returned; the handlers that terminate sessions and
that send bytes, each with the number of commands of the sink that it is past; the sessions that are
closed.  What follows is kept for the statements only: the commands
to send bytes for which a stream was found, each with its session, and what has been done. -/
structure HandlersState (F : Type u) where
  sink : List (WebTransportCommand F)
  sinkEnded : Bool
  start : Option ℕ
  sessions : SessionId → Bool
  streams : StreamMap
  configure : Option (Except BoxError Unit)
  terminate : Handler (ℕ × TerminateSessionCommand)
  terminated : ℕ
  send : Handler Writing
  sent : ℕ
  closed : SessionId → Bool
  found : List (ℕ × SessionId)
  effects : List Effect

/-- What happens.  The sink yields a command or ends; a session is established; a method that
registers streams gets one from the transport, with some QUIC id, or fails.  The driver is polled
for the first time.  The handler that configures the client returns.  The handler that terminates
sessions polls the sink, and is granted the lock of the session it closes.  The handler that sends
bytes polls the sink; the transport takes some bytes, or the write fails; and no bytes are left. -/
inductive HandlersEvent (F : Type u) where
  | sink : WebTransportCommand F → HandlersEvent F
  | sinkEnd
  | established : SessionId → HandlersEvent F
  | method : StreamMethod → SessionId → Except BoxError ℕ → HandlersEvent F
  | start
  | configure : Except BoxError Unit → HandlersEvent F
  | pollTerminate
  | close
  | pollSend
  | write : ℕ → HandlersEvent F
  | writeFails : BoxError → HandlersEvent F
  | written

/-- The sending side of the stream that a command is for, or why there is none. -/
def lookup (streams : StreamMap) (command : SendBytesCommand) : Except BoxError SendStream :=
  match streams command.streamId with
  | none => .error "invalid stream ID"
  | some stream =>
      match stream.tx with
      | none => .error "stream is not a writable stream"
      | some tx => .ok tx

theorem lookup_eq_ok {streams : StreamMap} {command : SendBytesCommand} {tx : SendStream} :
  lookup streams command = .ok tx ↔ streams.tx command.streamId = some tx
  := by
  rw [lookup, StreamMap.tx]
  cases streams command.streamId with
  | none => simp
  | some stream => cases h : stream.tx <;> simp [h]

theorem lookup_eq_error {streams : StreamMap} {command : SendBytesCommand} {err : BoxError}
    (h : lookup streams command = .error err) :
  err = "invalid stream ID" ∨ err = "stream is not a writable stream"
  := by
  rw [lookup] at h
  split at h
  · cases h
    exact .inl rfl
  · split at h <;> cases h
    exact .inr rfl

/-- What is unfolded for a command, by the stream that is found for it and how its write ends. -/
theorem sendBytesUnfold_eq (streams : StreamMap) (command : SendBytesCommand) (w : WriteOutcome) :
  (sendBytesUnfold streams command w).2 =
    match lookup streams command, w with
    | .error err, _ => some (.error err)
    | .ok _, .error _ err => some (.error err)
    | .ok _, .ok => if command.finished then none else some (.ok ())
  := by
  rw [sendBytesUnfold, lookup]
  cases streams command.streamId with
  | none => rfl
  | some stream =>
      cases htx : stream.tx with
      | none => simp [htx]
      | some tx =>
          cases w with
          | error n err => simp [htx]
          | ok => cases h : command.finished <;> simp [htx]

namespace HandlersState

/-- The sink has yielded nothing, and no session is established. -/
def init (F : Type u) : HandlersState F where
  sink := []
  sinkEnded := false
  start := none
  sessions _ := false
  streams _ := none
  configure := none
  terminate := .next
  terminated := 0
  send := .next
  sent := 0
  closed _ := false
  found := []
  effects := []

/-- What `run` returns: the first error of a handler, or nothing more once all have returned. -/
def result (s : HandlersState F) : Option (Except BoxError Unit) :=
  match s.configure, s.terminate, s.send with
  | some (.error err), _, _ => some (.error err)
  | _, .returned (.error err), _ => some (.error err)
  | _, _, .returned (.error err) => some (.error err)
  | some (.ok ()), .returned (.ok ()), .returned (.ok ()) => some (.ok ())
  | _, _, _ => none

/-- The driver has been polled, and has not returned. -/
def Running (s : HandlersState F) : Prop :=
  s.start ≠ none ∧ s.result = none

instance (s : HandlersState F) : Decidable s.Running :=
  inferInstanceAs (Decidable (_ ∧ _))

/-- The handler that terminates sessions polls the sink. -/
def pollTerminate (s : HandlersState F) : Option (HandlersState F) :=
  match s.terminate, s.sink[s.terminated]? with
  | .next, some (.terminateSession command) =>
      if s.sessions command.sessionId = true then
        some { s with
          terminated := s.terminated + 1
          terminate := .busy (s.terminated, command) }
      else
        some { s with
          terminated := s.terminated + 1
          terminate := .returned (.error "invalid session ID") }
  | .next, some _ => some { s with terminated := s.terminated + 1 }
  | .next, none =>
      if s.sinkEnded = true then some { s with terminate := .returned (.ok ()) } else none
  | _, _ => none

/-- The handler that sends bytes polls the sink. -/
def pollSend (s : HandlersState F) : Option (HandlersState F) :=
  match s.send, s.sink[s.sent]? with
  | .next, some (.sendBytes command) =>
      match lookup s.streams command with
      | .ok tx =>
          some { s with
            sent := s.sent + 1
            send := .busy ⟨s.sent, command, tx.origin.session, command.bytes⟩
            found := s.found ++ [(s.sent, tx.origin.session)] }
      | .error err => some { s with sent := s.sent + 1, send := .returned (.error err) }
  | .next, some _ => some { s with sent := s.sent + 1 }
  | .next, none => if s.sinkEnded = true then some { s with send := .returned (.ok ()) } else none
  | _, _ => none

/-- One event of a handler. -/
def handle (s : HandlersState F) : HandlersEvent F → Option (HandlersState F)
  | .configure result =>
      if s.configure = none then some { s with configure := some result } else none
  | .pollTerminate => s.pollTerminate
  | .close =>
      match s.terminate with
      | .busy (number, command) =>
          some { s with
            terminate := .next
            closed := Function.update s.closed command.sessionId true
            effects := s.effects ++ [.close number command.sessionId] }
      | _ => none
  | .pollSend => s.pollSend
  | .write n =>
      match s.send with
      | .busy w =>
          if s.closed w.session = false ∧ 0 < n ∧ n ≤ w.left.length then
            some { s with
              send := .busy { w with left := w.left.drop n }
              effects := s.effects ++ [.write w.number w.session (w.left.take n)] }
          else none
      | _ => none
  | .writeFails err =>
      match s.send with
      | .busy w =>
          if w.left ≠ [] then
            some { s with
              send := .returned (.error err)
              effects := s.effects ++ [.writeFailed w.number w.session] }
          else none
      | _ => none
  | .written =>
      match s.send with
      | .busy w =>
          if w.left = [] then
            some { s with send := if w.command.finished then .returned (.ok ()) else .next }
          else none
      | _ => none
  | _ => none

/-- One event.  The transport opens and accepts streams of a session only until it is closed,
and a write on a stream of a closed session can only fail. -/
def step (s : HandlersState F) : HandlersEvent F → Option (HandlersState F)
  | .sink command =>
      if s.sinkEnded = true then none else some { s with sink := s.sink ++ [command] }
  | .sinkEnd => some { s with sinkEnded := true }
  | .established session =>
      some { s with sessions := Function.update s.sessions session true }
  | .method method session (.error err) =>
      some { s with streams := (method.poll (s.sessions session) (.error err) s.streams).1 }
  | .method method session (.ok quicId) =>
      if s.closed session = true then none
      else
        some { s with
          streams := (method.poll (s.sessions session) (.ok ⟨session, quicId⟩) s.streams).1 }
  | .start =>
      if s.start = none then
        some { s with start := some s.sink.length, terminated := s.sink.length }
      else none
  | e => if s.Running then s.handle e else none

/-- The handlers as a machine. -/
def machine (F : Type u) : Machine (HandlersState F) (HandlersEvent F) where
  step := step

/-- The events of the handlers, one case for each way one can happen. -/
inductive Step (s : HandlersState F) : HandlersEvent F → HandlersState F → Prop where
  | sink (command : WebTransportCommand F) : s.sinkEnded = false →
      Step s (.sink command) { s with sink := s.sink ++ [command] }
  | sinkEnd : Step s .sinkEnd { s with sinkEnded := true }
  | established (session : SessionId) :
      Step s (.established session)
        { s with sessions := Function.update s.sessions session true }
  | fail (method : StreamMethod) (session : SessionId) (result : Except BoxError ℕ) :
      Step s (.method method session result) s
  | insert (method : StreamMethod) (origin : Origin) (stream : Stream) :
      s.closed origin.session = false → stream.Of origin →
      Step s (.method method origin.session (.ok origin.quicId))
        { s with streams := Function.update s.streams ⟨origin.quicId⟩ (some stream) }
  | start : s.start = none →
      Step s .start { s with start := some s.sink.length, terminated := s.sink.length }
  | configure (result : Except BoxError Unit) : s.Running →
      Step s (.configure result) { s with configure := some result }
  | takeTerminate (command : TerminateSessionCommand) : s.Running → s.terminate = .next →
      s.sink[s.terminated]? = some (.terminateSession command) →
      Step s .pollTerminate { s with
        terminated := s.terminated + 1
        terminate := .busy (s.terminated, command) }
  | invalidSession (command : TerminateSessionCommand) : s.Running → s.terminate = .next →
      s.sink[s.terminated]? = some (.terminateSession command) →
      s.sessions command.sessionId = false →
      Step s .pollTerminate { s with
        terminated := s.terminated + 1
        terminate := .returned (.error "invalid session ID") }
  | skipTerminate (command : WebTransportCommand F) : s.Running → s.terminate = .next →
      s.sink[s.terminated]? = some command →
      (∀ command', command ≠ .terminateSession command') →
      Step s .pollTerminate { s with terminated := s.terminated + 1 }
  | endTerminate : s.Running → s.terminate = .next → s.sink[s.terminated]? = none →
      s.sinkEnded = true →
      Step s .pollTerminate { s with terminate := .returned (.ok ()) }
  | close (number : ℕ) (command : TerminateSessionCommand) : s.Running →
      s.terminate = .busy (number, command) →
      Step s .close { s with
        terminate := .next
        closed := Function.update s.closed command.sessionId true
        effects := s.effects ++ [.close number command.sessionId] }
  | takeSend (command : SendBytesCommand) (tx : SendStream) : s.Running → s.send = .next →
      s.sink[s.sent]? = some (.sendBytes command) → s.streams.tx command.streamId = some tx →
      Step s .pollSend { s with
        sent := s.sent + 1
        send := .busy ⟨s.sent, command, tx.origin.session, command.bytes⟩
        found := s.found ++ [(s.sent, tx.origin.session)] }
  | invalidStream (command : SendBytesCommand) (err : BoxError) : s.Running →
      s.send = .next → s.sink[s.sent]? = some (.sendBytes command) →
      lookup s.streams command = .error err →
      Step s .pollSend { s with sent := s.sent + 1, send := .returned (.error err) }
  | skipSend (command : WebTransportCommand F) : s.Running → s.send = .next →
      s.sink[s.sent]? = some command → (∀ command', command ≠ .sendBytes command') →
      Step s .pollSend { s with sent := s.sent + 1 }
  | endSend : s.Running → s.send = .next → s.sink[s.sent]? = none → s.sinkEnded = true →
      Step s .pollSend { s with send := .returned (.ok ()) }
  | write (w : Writing) (n : ℕ) : s.Running → s.send = .busy w →
      s.closed w.session = false →
      Step s (.write n) { s with
        send := .busy { w with left := w.left.drop n }
        effects := s.effects ++ [.write w.number w.session (w.left.take n)] }
  | writeFails (w : Writing) (err : BoxError) : s.Running → s.send = .busy w →
      Step s (.writeFails err) { s with
        send := .returned (.error err)
        effects := s.effects ++ [.writeFailed w.number w.session] }
  | written (w : Writing) (send : Handler Writing) : s.Running → s.send = .busy w →
      w.left = [] → (w.command.finished = true ∧ send = .returned (.ok ())) ∨ send = .next →
      Step s .written { s with send := send }

/-- The machine makes the steps of `Step`. -/
theorem step_of_machine {s t : HandlersState F} {e : HandlersEvent F}
    (h : (machine F).step s e = some t) :
  Step s e t
  := by
  change s.step e = some t at h
  cases e with
  | sink command =>
      simp only [step] at h
      split at h <;> cases h
      apply Step.sink _ ((Bool.not_eq_true _).mp ‹_›)
  | sinkEnd =>
      obtain rfl := Option.some.inj h
      apply Step.sinkEnd
  | established session =>
      obtain rfl := Option.some.inj h
      apply Step.established
  | method method session result =>
      cases result with
      | error err =>
          obtain rfl := Option.some.inj h
          rw [StreamMethod.poll_error]
          apply Step.fail
      | ok quicId =>
          simp only [step] at h
          split at h <;> cases h
          cases hs : s.sessions session with
          | false =>
              rw [StreamMethod.poll_notFound]
              apply Step.fail
          | true =>
              obtain ⟨stream, hof, hpoll⟩ := method.poll_ok ⟨session, quicId⟩ s.streams
              rw [hpoll]
              apply Step.insert method ⟨session, quicId⟩ stream ((Bool.not_eq_true _).mp ‹_›) hof
  | start =>
      simp only [step] at h
      split at h <;> cases h
      apply Step.start ‹_›
  | configure result =>
      simp only [step, handle] at h
      split at h
      · split at h <;> cases h
        apply Step.configure _ ‹_›
      · cases h
  | pollTerminate =>
      simp only [step, handle, pollTerminate] at h
      split at h
      · split at h
        · split at h <;> cases h
          · apply Step.takeTerminate _ ‹_› ‹_› ‹_›
          · apply Step.invalidSession _ ‹_› ‹_› ‹_› ((Bool.not_eq_true _).mp ‹_›)
        · rename_i command hne _ _
          cases h
          apply Step.skipTerminate command ‹_› ‹_› ‹_›
          rintro command' rfl
          apply hne command' rfl
        · split at h <;> cases h
          apply Step.endTerminate ‹_› ‹_› ‹_› ‹_›
        · cases h
      · cases h
  | close =>
      simp only [step, handle] at h
      split at h
      · split at h <;> cases h
        apply Step.close _ _ ‹_› ‹_›
      · cases h
  | pollSend =>
      simp only [step, handle, pollSend] at h
      split at h
      · split at h
        · split at h <;> cases h
          · apply Step.takeSend _ _ ‹_› ‹_› ‹_› (lookup_eq_ok.mp ‹_›)
          · apply Step.invalidStream _ _ ‹_› ‹_› ‹_› ‹_›
        · rename_i command hne _ _
          cases h
          apply Step.skipSend command ‹_› ‹_› ‹_›
          rintro command' rfl
          apply hne command' rfl
        · split at h <;> cases h
          apply Step.endSend ‹_› ‹_› ‹_› ‹_›
        · cases h
      · cases h
  | write n =>
      simp only [step, handle] at h
      split at h
      · split at h
        · split at h <;> cases h
          obtain ⟨hc, -⟩ := ‹_ ∧ _›
          apply Step.write _ _ ‹_› ‹_› hc
        · cases h
      · cases h
  | writeFails err =>
      simp only [step, handle] at h
      split at h
      · split at h
        · split at h <;> cases h
          apply Step.writeFails _ _ ‹_› ‹_›
        · cases h
      · cases h
  | written =>
      simp only [step, handle] at h
      split at h
      · split at h
        · split at h <;> cases h
          refine Step.written _ _ ‹_› ‹_› ‹_› ?_
          split
          · exact .inl ⟨‹_›, rfl⟩
          · exact .inr rfl
        · cases h
      · cases h

/-- While `run` has not returned, no handler has failed. -/
theorem not_failed {s : HandlersState F} (h : s.result = none) (err : BoxError) :
  s.send ≠ .returned (.error err)
  := by
  intro hs
  rw [result, hs] at h
  split at h <;> simp_all

end HandlersState

end WebTransport

end Cyclers
