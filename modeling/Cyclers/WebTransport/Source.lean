import Cyclers.Async.Subscriber
import Cyclers.WebTransport.StreamMap

/-!
# The source

Any number of streams are obtained from a source and its clones, which share the sink, the clients
and the two maps.  A stream of sessions takes the commands to establish a session, pairs them with
clients, connects, and registers the sessions; the streams of a session are created, or received,
and registered.  An item is yielded in a step of its own after what it tells has been registered,
so that other tasks go on in between.  Beside these streams the driver terminates sessions and
sends bytes.

The lock of a session only restricts the order of what happens here, and is left out.
-/

open Async

namespace Cyclers

namespace WebTransport

universe u

variable {F : Type u}

/-- A session that has been connected: its number among all of them, and its stable id. -/
structure Session where
  number : ℕ
  stableId : ℕ
  deriving DecidableEq

/-- A session is known by its stable id. -/
def Session.id (session : Session) : SessionId :=
  ⟨session.stableId⟩

/-- What a stream of the source yields: sessions, or the streams of a session by a method. -/
inductive SourceMethod where
  | sessionReady
  | streams : StreamMethod → SessionId → SourceMethod
  deriving DecidableEq

/-- A method waits for the peer to open streams. -/
def StreamMethod.received : StreamMethod → Bool
  | .uniStreamReceived => true
  | .biStreamReceived => true
  | _ => false

/-- The command to create a stream that a method keeps. -/
def StreamMethod.create (sessionId : SessionId) :
    StreamMethod → WebTransportCommand F → Option CreateStreamCommand
  | .uniStreamCreated, .createUniStream command =>
      if command.sessionId = sessionId then some command else none
  | .biStreamCreated, .createBiStream command =>
      if command.sessionId = sessionId then some command else none
  | _, _ => none

/-- The command to establish a session that the stream of sessions keeps. -/
def establish : WebTransportCommand F → Option EstablishSessionCommand
  | .establishSession command => some command
  | _ => none

/-- A stream of the source keeps a command. -/
def SourceMethod.keeps : SourceMethod → WebTransportCommand F → Bool
  | .sessionReady, command => (establish command).isSome
  | .streams method sessionId, command => (method.create sessionId command).isSome

/-- An item of a stream of the source: the URL and the session, or the id of the stream, or an
error. -/
inductive SourceItem where
  | session : Except BoxError (Session × Url) → SourceItem
  | stream : Except StreamError StreamId → SourceItem
  deriving DecidableEq

/-- What a stream of the source does: it polls for the next command, and for a client, of which it
may have one already; it awaits a connection; it registers the session that has been connected; it
looks up the session for which a stream is to be created or received; it awaits the stream; it
registers the stream that has been opened; it yields an item; it has panicked, or been dropped.
The command to establish a session or to create a stream comes with its position in the sink. -/
inductive SourceTask where
  | next : Option Client → Option (ℕ × Url) → SourceTask
  | connect : Client → Url → SourceTask
  | insertSession : Session → Url → SourceTask
  | lookup : Option (ℕ × UInt32) → SourceTask
  | transport : Option (ℕ × UInt32) → SourceTask
  | insertStream : ℕ → SourceTask
  | item : SourceItem → SourceTask
  | panicked
  | dropped

/-- A stream obtained from the source: its method, the positions in the sink at which it was
obtained and from which it goes on, the position from which it goes on among the clients, and what
it does. -/
structure SourceStream where
  method : SourceMethod
  start : ℕ
  nextCommand : ℕ
  nextClient : ℕ
  task : SourceTask

/-- The source and the driver: the commands that the sink has yielded; the clients sent to the
source; the number of streams obtained, and the streams; the number of sessions connected; the two
maps.  Of the driver: how many commands the sink had yielded when it was polled for the first time,
if it has been; how far its loops have come in the sink, of which the one that terminates sessions
subscribes to it only then; the command whose session is to be closed, whether the loop that sends
bytes has ended, and the error that has ended it all.  What follows is kept for the statements only:
the sessions yielded, each under its id, and the ids of streams yielded, each with the method; the
connections begun and the streams created, each by stream of the source and by position of the
command in the sink; the sessions closed. -/
structure SourceState (F : Type u) where
  sink : List (WebTransportCommand F)
  clients : List Client
  count : ℕ
  streams : ℕ → SourceStream
  connected : ℕ
  sessionMap : SessionId → Option Session
  streamMap : StreamMap
  start : Option ℕ
  terminated : ℕ
  closing : Option TerminateSessionCommand
  sent : ℕ
  sendEnded : Bool
  failed : Option BoxError
  sessionsYielded : List (SessionId × Session)
  streamsYielded : List (StreamId × StreamMethod)
  effects : List (ℕ × ℕ)
  closed : List TerminateSessionCommand

/-- What happens: the sink yields a command; a client is sent to the source; a stream is obtained,
or dropped; a stream polls for a client or for a command; it pairs the two and begins to connect;
the connection ends; the session is registered; a stream of received streams is polled; the
session is looked up; the transport opens or accepts a stream with some QUIC id, or fails; the
stream is registered; an item is yielded; the driver is polled for the first time, takes the next
command to terminate a session, closes the session, or takes the next command to send bytes. -/
inductive SourceEvent (F : Type u) where
  | sink : WebTransportCommand F → SourceEvent F
  | client : Client → SourceEvent F
  | obtain : SourceMethod → SourceEvent F
  | drop : ℕ → SourceEvent F
  | pollClient : ℕ → SourceEvent F
  | pollCommand : ℕ → SourceEvent F
  | zip : ℕ → SourceEvent F
  | connected : ℕ → Except BoxError ℕ → SourceEvent F
  | insertSession : ℕ → SourceEvent F
  | pollReceived : ℕ → SourceEvent F
  | lookup : ℕ → SourceEvent F
  | transport : ℕ → Except BoxError ℕ → SourceEvent F
  | insertStream : ℕ → SourceEvent F
  | yield : ℕ → SourceEvent F
  | start
  | terminate
  | close
  | sendBytes : WriteOutcome → SourceEvent F

/-- The greatest send order that fits in an `i32`. -/
def maxSendOrder : UInt32 := 2147483647

namespace SourceState

/-- Nothing has happened. -/
def init (F : Type u) : SourceState F where
  sink := []
  clients := []
  count := 0
  streams _ := ⟨.sessionReady, 0, 0, 0, .dropped⟩
  connected := 0
  sessionMap _ := none
  streamMap _ := none
  start := none
  terminated := 0
  closing := none
  sent := 0
  sendEnded := false
  failed := none
  sessionsYielded := []
  streamsYielded := []
  effects := []
  closed := []

/-- Change the stream `j`. -/
def set (s : SourceState F) (j : ℕ) (r : SourceStream) : SourceState F :=
  { s with streams := Function.update s.streams j r }

/-- Change what the stream `j` does. -/
def setTask (s : SourceState F) (j : ℕ) (task : SourceTask) : SourceState F :=
  s.set j { s.streams j with task := task }

/-- The task of the stream `j`, when it has been obtained. -/
def task (s : SourceState F) (j : ℕ) : Option SourceTask :=
  if j < s.count then some (s.streams j).task else none

/-- A stream of the source takes the next item of the sink, which it may pass over. -/
def pollCommand (s : SourceState F) (j : ℕ) (client : Option Client) : Option (SourceState F) :=
  match s.sink[(s.streams j).nextCommand]?, (s.streams j).method with
  | some command, .sessionReady =>
      match establish command with
      | some ⟨url⟩ =>
          some (s.set j { s.streams j with
            nextCommand := (s.streams j).nextCommand + 1
            task := .next client (some ((s.streams j).nextCommand, url)) })
      | none =>
          some (s.set j { s.streams j with nextCommand := (s.streams j).nextCommand + 1 })
  | some command, .streams method sessionId =>
      if method.received then none
      else
        match method.create sessionId command with
        | some ⟨_, sendOrder⟩ =>
            some (s.set j { s.streams j with
              nextCommand := (s.streams j).nextCommand + 1
              task := .lookup (some ((s.streams j).nextCommand, sendOrder)) })
        | none =>
            some (s.set j { s.streams j with nextCommand := (s.streams j).nextCommand + 1 })
  | none, _ => none

/-- The transport has opened or accepted a stream with the QUIC id `quicId`.  The order in which a
stream that is created sends is set, when it is not zero, and has to fit in an `i32`. -/
def opened (s : SourceState F) (j : ℕ) (request : Option (ℕ × UInt32)) (quicId : ℕ) :
    SourceState F :=
  match request with
  | none => s.setTask j (.insertStream quicId)
  | some (i, sendOrder) =>
      { s with effects := s.effects ++ [(j, i)] }.setTask j
        (if sendOrder ≤ maxSendOrder then .insertStream quicId else .panicked)

/-- The stream `j` yields an item, and goes on. -/
def yield (s : SourceState F) (j : ℕ) (item : SourceItem) : SourceState F :=
  match item, (s.streams j).method with
  | .session (.ok (session, _)), _ =>
      { s with sessionsYielded := s.sessionsYielded ++ [(session.id, session)] }.setTask j
        (.next none none)
  | .stream (.ok id), .streams method _ =>
      { s with streamsYielded := s.streamsYielded ++ [(id, method)] }.setTask j (.next none none)
  | _, _ => s.setTask j (.next none none)

/-- The driver takes the next item of the sink, which may be to terminate a session. -/
def terminate (s : SourceState F) : Option (SourceState F) :=
  match s.sink[s.terminated]? with
  | some (.terminateSession command) =>
      match s.sessionMap command.sessionId with
      | some _ => some { s with terminated := s.terminated + 1, closing := some command }
      | none => some { s with terminated := s.terminated + 1, failed := some "invalid session ID" }
  | some _ => some { s with terminated := s.terminated + 1 }
  | none => none

/-- The driver takes the next item of the sink, which may be to send bytes. -/
def sendBytes (s : SourceState F) (w : WriteOutcome) : Option (SourceState F) :=
  match s.sink[s.sent]? with
  | some (.sendBytes command) =>
      match sendBytesUnfold s.streamMap command w with
      | (streams, none) =>
          some { s with sent := s.sent + 1, streamMap := streams, sendEnded := true }
      | (streams, some (.error err)) =>
          some { s with sent := s.sent + 1, streamMap := streams, failed := some err }
      | (streams, some (.ok ())) => some { s with sent := s.sent + 1, streamMap := streams }
  | some _ => some { s with sent := s.sent + 1 }
  | none => none

/-- One event. -/
def step (s : SourceState F) : SourceEvent F → Option (SourceState F)
  | .sink command => some { s with sink := s.sink ++ [command] }
  | .client client => some { s with clients := s.clients ++ [client] }
  | .obtain method =>
      some ({ s with count := s.count + 1 }.set s.count
        ⟨method, s.sink.length, s.sink.length, s.clients.length - 1, .next none none⟩)
  | .drop j => if j < s.count then some (s.setTask j .dropped) else none
  | .pollClient j =>
      match s.task j, (s.streams j).method, s.clients[(s.streams j).nextClient]? with
      | some (.next none establish), .sessionReady, some client =>
          some (s.set j { s.streams j with
            nextClient := (s.streams j).nextClient + 1
            task := .next (some client) establish })
      | _, _, _ => none
  | .pollCommand j =>
      match s.task j with
      | some (.next client none) => s.pollCommand j client
      | _ => none
  | .zip j =>
      match s.task j with
      | some (.next (some client) (some (i, url))) =>
          some ({ s with effects := s.effects ++ [(j, i)] }.setTask j (.connect client url))
      | _ => none
  | .connected j result =>
      match s.task j, result with
      | some (.connect _ _), .error err => some (s.setTask j (.item (.session (.error err))))
      | some (.connect _ url), .ok stableId =>
          some ({ s with connected := s.connected + 1 }.setTask j
            (.insertSession ⟨s.connected, stableId⟩ url))
      | _, _ => none
  | .insertSession j =>
      match s.task j with
      | some (.insertSession session url) =>
          some ({ s with
            sessionMap := Function.update s.sessionMap session.id (some session) }.setTask j
              (.item (.session (.ok (session, url)))))
      | _ => none
  | .pollReceived j =>
      match s.task j, (s.streams j).method with
      | some (.next _ none), .streams method _ =>
          if method.received then some (s.setTask j (.lookup none)) else none
      | _, _ => none
  | .lookup j =>
      match s.task j, (s.streams j).method with
      | some (.lookup request), .streams _ sessionId =>
          match s.sessionMap sessionId with
          | some _ => some (s.setTask j (.transport request))
          | none =>
              some (s.setTask j
                (.item (.stream (.error ⟨.sessionNotFound, "could not find session"⟩))))
      | _, _ => none
  | .transport j result =>
      match s.task j, result with
      | some (.transport _), .error err =>
          some (s.setTask j (.item (.stream (.error ⟨.invalidTransportState, err⟩))))
      | some (.transport request), .ok quicId => some (s.opened j request quicId)
      | _, _ => none
  | .insertStream j =>
      match s.task j, (s.streams j).method with
      | some (.insertStream quicId), .streams method sessionId =>
          match method.poll true (.ok ⟨sessionId, quicId⟩) s.streamMap with
          | (streams, item) => some ({ s with streamMap := streams }.setTask j (.item (.stream item)))
      | _, _ => none
  | .yield j =>
      match s.task j with
      | some (.item item) => some (s.yield j item)
      | _ => none
  | .start =>
      if s.start = none then
        some { s with start := some s.sink.length, terminated := s.sink.length }
      else none
  | .terminate =>
      if s.start ≠ none ∧ s.closing = none ∧ s.failed = none then s.terminate else none
  | .close =>
      match s.closing, s.failed with
      | some command, none =>
          some { s with closing := none, closed := s.closed ++ [command] }
      | _, _ => none
  | .sendBytes w =>
      if s.start ≠ none ∧ s.sendEnded = false ∧ s.failed = none then s.sendBytes w else none

/-- The source and the driver as a machine. -/
def machine (F : Type u) : Machine (SourceState F) (SourceEvent F) where
  step := step

/-! ### The events -/

theorem set_streams_self (s : SourceState F) (j : ℕ) (r : SourceStream) :
  (s.set j r).streams j = r
  := by
  rw [set]
  apply Function.update_self

theorem set_streams_of_ne (s : SourceState F) {j j' : ℕ} (h : j' ≠ j) (r : SourceStream) :
  (s.set j r).streams j' = s.streams j'
  := by
  rw [set]
  apply Function.update_of_ne h

theorem task_eq_some {s : SourceState F} {j : ℕ} {task : SourceTask} :
  s.task j = some task ↔ j < s.count ∧ (s.streams j).task = task
  := by
  rw [SourceState.task]
  split
  · simp [*]
  · simp [*]

/-- The events, one case for each way one can happen. -/
inductive Step (s : SourceState F) : SourceEvent F → SourceState F → Prop where
  | sink (command : WebTransportCommand F) :
      Step s (.sink command) { s with sink := s.sink ++ [command] }
  | client (client : Client) :
      Step s (.client client) { s with clients := s.clients ++ [client] }
  | obtain (method : SourceMethod) :
      Step s (.obtain method) ({ s with count := s.count + 1 }.set s.count
        ⟨method, s.sink.length, s.sink.length, s.clients.length - 1, .next none none⟩)
  | drop (j : ℕ) : j < s.count → Step s (.drop j) (s.setTask j .dropped)
  | pollClient (j : ℕ) (client : Client) (establish : Option (ℕ × Url)) :
      s.task j = some (.next none establish) → s.clients[(s.streams j).nextClient]? = some client →
      Step s (.pollClient j) (s.set j { s.streams j with
        nextClient := (s.streams j).nextClient + 1, task := .next (some client) establish })
  | skip (j : ℕ) (client : Option Client) (command : WebTransportCommand F) :
      s.task j = some (.next client none) →
      s.sink[(s.streams j).nextCommand]? = some command →
      Step s (.pollCommand j)
        (s.set j { s.streams j with nextCommand := (s.streams j).nextCommand + 1 })
  | takeEstablish (j : ℕ) (client : Option Client) (command : WebTransportCommand F) (url : Url) :
      s.task j = some (.next client none) →
      s.sink[(s.streams j).nextCommand]? = some command →
      (s.streams j).method.keeps command = true →
      Step s (.pollCommand j) (s.set j { s.streams j with
        nextCommand := (s.streams j).nextCommand + 1
        task := .next client (some ((s.streams j).nextCommand, url)) })
  | takeCreate (j : ℕ) (client : Option Client) (command : WebTransportCommand F)
      (sendOrder : UInt32) : s.task j = some (.next client none) →
      s.sink[(s.streams j).nextCommand]? = some command →
      (s.streams j).method.keeps command = true →
      Step s (.pollCommand j) (s.set j { s.streams j with
        nextCommand := (s.streams j).nextCommand + 1
        task := .lookup (some ((s.streams j).nextCommand, sendOrder)) })
  | zip (j : ℕ) (client : Client) (i : ℕ) (url : Url) :
      s.task j = some (.next (some client) (some (i, url))) →
      Step s (.zip j) ({ s with effects := s.effects ++ [(j, i)] }.setTask j (.connect client url))
  | connectFailed (j : ℕ) (client : Client) (url : Url) (err : BoxError) :
      s.task j = some (.connect client url) →
      Step s (.connected j (.error err)) (s.setTask j (.item (.session (.error err))))
  | connected (j : ℕ) (client : Client) (url : Url) (stableId : ℕ) :
      s.task j = some (.connect client url) →
      Step s (.connected j (.ok stableId)) ({ s with connected := s.connected + 1 }.setTask j
        (.insertSession ⟨s.connected, stableId⟩ url))
  | insertSession (j : ℕ) (session : Session) (url : Url) :
      s.task j = some (.insertSession session url) →
      Step s (.insertSession j) ({ s with
        sessionMap := Function.update s.sessionMap session.id (some session) }.setTask j
          (.item (.session (.ok (session, url)))))
  | pollReceived (j : ℕ) (client : Option Client) (method : StreamMethod) (sessionId : SessionId) :
      s.task j = some (.next client none) → (s.streams j).method = .streams method sessionId →
      Step s (.pollReceived j) (s.setTask j (.lookup none))
  | found (j : ℕ) (request : Option (ℕ × UInt32)) : s.task j = some (.lookup request) →
      Step s (.lookup j) (s.setTask j (.transport request))
  | notFound (j : ℕ) (request : Option (ℕ × UInt32)) (err : StreamError) :
      s.task j = some (.lookup request) →
      Step s (.lookup j) (s.setTask j (.item (.stream (.error err))))
  | transportFailed (j : ℕ) (request : Option (ℕ × UInt32)) (err : BoxError) (err' : StreamError) :
      s.task j = some (.transport request) →
      Step s (.transport j (.error err)) (s.setTask j (.item (.stream (.error err'))))
  | accepted (j quicId : ℕ) : s.task j = some (.transport none) →
      Step s (.transport j (.ok quicId)) (s.setTask j (.insertStream quicId))
  | created (j i quicId : ℕ) (sendOrder : UInt32) :
      s.task j = some (.transport (some (i, sendOrder))) →
      Step s (.transport j (.ok quicId))
        ({ s with effects := s.effects ++ [(j, i)] }.setTask j (.insertStream quicId))
  | panicked (j i quicId : ℕ) (sendOrder : UInt32) :
      s.task j = some (.transport (some (i, sendOrder))) →
      Step s (.transport j (.ok quicId))
        ({ s with effects := s.effects ++ [(j, i)] }.setTask j .panicked)
  | insertStream (j quicId : ℕ) (method : StreamMethod) (sessionId : SessionId) :
      s.task j = some (.insertStream quicId) → (s.streams j).method = .streams method sessionId →
      Step s (.insertStream j) ({ s with
        streamMap := (method.poll true (.ok ⟨sessionId, quicId⟩) s.streamMap).1 }.setTask j
          (.item (.stream (.ok ⟨quicId⟩))))
  | yieldSession (j : ℕ) (session : Session) (url : Url) :
      s.task j = some (.item (.session (.ok (session, url)))) →
      Step s (.yield j) ({ s with
        sessionsYielded := s.sessionsYielded ++ [(session.id, session)] }.setTask j
          (.next none none))
  | yieldStream (j : ℕ) (id : StreamId) (method : StreamMethod) (sessionId : SessionId) :
      s.task j = some (.item (.stream (.ok id))) →
      (s.streams j).method = .streams method sessionId →
      Step s (.yield j) ({ s with
        streamsYielded := s.streamsYielded ++ [(id, method)] }.setTask j (.next none none))
  | yieldOther (j : ℕ) (item : SourceItem) : s.task j = some (.item item) →
      (∀ session url, item ≠ .session (.ok (session, url))) →
      Step s (.yield j) (s.setTask j (.next none none))
  | start : s.start = none →
      Step s .start { s with start := some s.sink.length, terminated := s.sink.length }
  | terminate (terminated : ℕ) (closing : Option TerminateSessionCommand)
      (failed : Option BoxError) :
      Step s .terminate { s with terminated := terminated, closing := closing, failed := failed }
  | close (command : TerminateSessionCommand) : s.closing = some command →
      Step s .close { s with closing := none, closed := s.closed ++ [command] }
  | sendBytes (command : SendBytesCommand) (w : WriteOutcome) (sendEnded : Bool)
      (failed : Option BoxError) : s.sink[s.sent]? = some (.sendBytes command) →
      Step s (.sendBytes w) { s with
        sent := s.sent + 1
        streamMap := (sendBytesUnfold s.streamMap command w).1
        sendEnded := sendEnded
        failed := failed }
  | sendBytesSkip (w : WriteOutcome) : Step s (.sendBytes w) { s with sent := s.sent + 1 }

/-- A stream of the source takes a command, or passes over it. -/
theorem step_of_pollCommand {s t : SourceState F} {j : ℕ} {client : Option Client}
    (ht : s.task j = some (.next client none)) (h : s.pollCommand j client = some t) :
  Step s (.pollCommand j) t
  := by
  simp only [pollCommand] at h
  split at h
  · rename_i command hget hm
    split at h
    · rename_i url hk
      cases h
      apply Step.takeEstablish j client command url ht hget
      rw [hm, SourceMethod.keeps, hk]
      rfl
    · cases h
      apply Step.skip j client command ht hget
  · rename_i command method sessionId hget hm
    split at h
    · cases h
    · split at h
      · rename_i sendOrder hk
        cases h
        apply Step.takeCreate j client command sendOrder ht hget
        rw [hm, SourceMethod.keeps, hk]
        rfl
      · cases h
        apply Step.skip j client command ht hget
  · cases h

/-- The transport has opened or accepted a stream. -/
theorem step_of_opened {s : SourceState F} {j quicId : ℕ} {request : Option (ℕ × UInt32)}
    (ht : s.task j = some (.transport request)) :
  Step s (.transport j (.ok quicId)) (s.opened j request quicId)
  := by
  cases request with
  | none => exact Step.accepted j quicId ht
  | some request =>
      obtain ⟨i, sendOrder⟩ := request
      rw [opened]
      split
      · apply Step.created j i quicId sendOrder ht
      · apply Step.panicked j i quicId sendOrder ht

/-- An item is yielded. -/
theorem step_of_yield {s : SourceState F} {j : ℕ} {item : SourceItem}
    (ht : s.task j = some (.item item)) :
  Step s (.yield j) (s.yield j item)
  := by
  unfold yield
  split
  · apply Step.yieldSession j _ _ ht
  · rename_i hm
    apply Step.yieldStream j _ _ _ ht hm
  · apply Step.yieldOther j _ ht
    assumption

theorem step_of_terminate {s t : SourceState F} (h : s.terminate = some t) :
  Step s .terminate t
  := by
  simp only [terminate] at h
  split at h
  · split at h <;> cases h <;> exact Step.terminate _ _ _
  · cases h
    exact Step.terminate _ _ _
  · cases h

theorem step_of_sendBytes {s t : SourceState F} {w : WriteOutcome} (h : s.sendBytes w = some t) :
  Step s (.sendBytes w) t
  := by
  simp only [sendBytes] at h
  split at h
  · rename_i command hget
    split at h <;> cases h
    · rename_i streams hu
      have hs := Step.sendBytes command w true s.failed hget
      rw [hu] at hs
      exact hs
    · rename_i streams err hu
      have hs := Step.sendBytes command w s.sendEnded (some err) hget
      rw [hu] at hs
      exact hs
    · rename_i streams hu
      have hs := Step.sendBytes command w s.sendEnded s.failed hget
      rw [hu] at hs
      exact hs
  · cases h
    apply Step.sendBytesSkip
  · cases h

/-- The machine makes the steps of `Step`. -/
theorem step_of_machine {s t : SourceState F} {e : SourceEvent F}
    (h : (machine F).step s e = some t) :
  Step s e t
  := by
  change s.step e = some t at h
  cases e with
  | sink command =>
      cases h
      apply Step.sink
  | client client =>
      cases h
      apply Step.client
  | obtain method =>
      cases h
      apply Step.obtain
  | drop j =>
      simp only [step] at h
      split at h <;> cases h
      apply Step.drop j ‹_›
  | pollClient j =>
      simp only [step] at h
      split at h <;> cases h
      apply Step.pollClient j _ _ ‹_› ‹_›
  | pollCommand j =>
      simp only [step] at h
      split at h
      · apply step_of_pollCommand ‹_› h
      · cases h
  | zip j =>
      simp only [step] at h
      split at h <;> cases h
      apply Step.zip j _ _ _ ‹_›
  | connected j result =>
      simp only [step] at h
      split at h <;> cases h
      · apply Step.connectFailed j _ _ _ ‹_›
      · apply Step.connected j _ _ _ ‹_›
  | insertSession j =>
      simp only [step] at h
      split at h <;> cases h
      apply Step.insertSession j _ _ ‹_›
  | pollReceived j =>
      simp only [step] at h
      split at h
      · split at h <;> cases h
        apply Step.pollReceived j _ _ _ ‹_› ‹_›
      · cases h
  | lookup j =>
      simp only [step] at h
      split at h
      · split at h <;> cases h
        · apply Step.found j _ ‹_›
        · apply Step.notFound j _ _ ‹_›
      · cases h
  | transport j result =>
      simp only [step] at h
      split at h <;> cases h
      · apply Step.transportFailed j _ _ _ ‹_›
      · apply step_of_opened ‹_›
  | insertStream j =>
      simp only [step] at h
      split at h
      · rename_i quicId method sessionId ht hm
        cases h
        have hs := Step.insertStream j quicId method sessionId ht hm
        obtain ⟨stream, -, hpoll⟩ := method.poll_ok ⟨sessionId, quicId⟩ s.streamMap
        rw [hpoll] at hs ⊢
        exact hs
      · cases h
  | yield j =>
      simp only [step] at h
      split at h <;> cases h
      apply step_of_yield ‹_›
  | start =>
      simp only [step] at h
      split at h <;> cases h
      apply Step.start ‹_›
  | terminate =>
      simp only [step] at h
      split at h
      · apply step_of_terminate h
      · cases h
  | close =>
      simp only [step] at h
      split at h <;> cases h
      apply Step.close _ ‹_›
  | sendBytes w =>
      simp only [step] at h
      split at h
      · apply step_of_sendBytes h
      · cases h

end SourceState

end WebTransport

end Cyclers
