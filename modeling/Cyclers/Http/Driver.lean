import Cyclers.Async.Combinator
import Cyclers.Async.Mpsc
import Cyclers.Driver

/-!
# The HTTP driver

`HttpState` is the state of the driver and of one stream `responses` of its source.  The
driver builds the configured clients and sends them to the source, which repeats the first
one it receives for ever.  The default client takes part in `responses`: it is made when a
request is there and no client has arrived, and it is sent to the source as well.

In `responses`, a client and a request are paired by position and the requests are executed,
all of them at once; each response waits for a permit and is sent to the stream, which polls
the loop of the executions when the channel gives it no response.  The stream ends then if the
loop has ended, be a response in the channel or not: a runtime may have the channel hold one back
from a task that has gone on for long.
-/

open Async

namespace Cyclers

namespace Http

universe u

/-- A command of the HTTP driver: a client is configured by a builder that stands in a cell of
type `B`, a request is of type `R`. -/
inductive HttpCommand (B R : Type u) where
  | configureClient : B → HttpCommand B R
  | sendRequest : R → HttpCommand B R
  deriving DecidableEq

/-- Why configuring a client fails. -/
inductive ConfigureClientErrorKind where
  | builder
  deriving DecidableEq

/-- The error of configuring a client. -/
structure ConfigureClientError where
  kind : ConfigureClientErrorKind
  inner : BoxError
  deriving DecidableEq

/-- Buffer capacity for the channel of clients. -/
def clientBufferLen : ℕ := 1

/-- Buffer capacity for the channel of responses. -/
def responseBufferLen : ℕ := 1

/-- The run loop of the driver: it awaits the next command that configures the client, it
awaits a permit to send a client, it has returned, or it has panicked. -/
inductive RunLoop where
  | next
  | reserve : Client → RunLoop
  | returned : Except ConfigureClientError Unit → RunLoop
  | panicked
  deriving DecidableEq

/-- The client that awaits a permit. -/
def RunLoop.reserved : RunLoop → List Client
  | .reserve client => [client]
  | _ => []

/-- The loop of the executions: it pairs clients and requests, it waits for the executions
that are left, or it has panicked. -/
inductive RequestLoop where
  | running
  | flushing
  | panicked
  deriving DecidableEq

variable {B R P : Type u}

/-- What a command of the HTTP driver is for the client: it is used to send requests. -/
def clientUse : HttpCommand B R → ClientUse R
  | .configureClient _ => .configure
  | .sendRequest request => .use request

/-- The cells of the builders of the commands that configure the client. -/
def builders (sink : List (HttpCommand B R)) : List B :=
  sink.filterMap fun command =>
    match command with
    | .configureClient builder => some builder
    | .sendRequest _ => none

/-- The requests, each with the number of commands before it that configure the client. -/
def requests (sink : List (HttpCommand B R)) : List (ℕ × R) :=
  uses (sink.map clientUse)

/-- The state of the driver and of one stream `responses`.  Of the driver: the commands the
sink has yielded and whether it has ended; the cells whose builder has been taken; the number
of clients built; the run loop.  Of the source: the channel of clients; the client that is
repeated; whether the default client has been made.  Of `responses`: the number of requests
taken; the client and the request that await to be paired; the executions, by client and
request, in the order they start; the number of each execution that has not ended; the
responses that await a permit; the loop of the executions; the channel of responses; the items
yielded; and how the stream of the loop stands.  The outcomes of the executions that have ended
are kept for the statements only. -/
structure HttpState (B R P : Type u) where
  sink : List (HttpCommand B R)
  sinkEnded : Bool
  taken : List B
  configured : ℕ
  run : RunLoop
  clients : Mpsc Client clientBufferLen
  repeated : Option Client
  default : Bool
  sent : ℕ
  client : Option Client
  request : Option R
  executions : List (Client × R)
  executing : List ℕ
  reserving : List (ℕ × Except BoxError P)
  loop : RequestLoop
  channel : Mpsc (ℕ × Except BoxError P) responseBufferLen
  yielded : List (ℕ × Except BoxError P)
  once : OnceFuture
  outcomes : List (ℕ × Except BoxError P)

/-- What happens.  The sink yields a command or ends.  The run loop takes a command that
configures the client, and its builder gives a result; it is granted or denied a permit; it
returns at the end of the sink.  The pairing polls the source for a client, polls for the
default client, polls for a request, pairs the two, or ends, as one of its two streams has ended.
An execution ends; the response
number `i` of those that wait is granted a permit; the loop ends.  The stream yields a
response, or ends. -/
inductive HttpEvent (B R P : Type u) where
  | sink : HttpCommand B R → HttpEvent B R P
  | sinkEnd
  | configureClient : Except BoxError Unit → HttpEvent B R P
  | reserveClient
  | runEnd
  | pollClient
  | pollDefaultClient
  | pollRequest
  | zip
  | zipEnd
  | execute : ℕ → Except BoxError P → HttpEvent B R P
  | reserveResponse : ℕ → HttpEvent B R P
  | loopEnd
  | yieldResponse
  | responsesEnd

namespace HttpState

/-- The sink has yielded nothing, and `responses` has not been polled. -/
def init (B R P : Type u) : HttpState B R P where
  sink := []
  sinkEnded := false
  taken := []
  configured := 0
  run := .next
  clients := Mpsc.channel Client clientBufferLen
  repeated := none
  default := false
  sent := 0
  client := none
  request := none
  executions := []
  executing := []
  reserving := []
  loop := .running
  channel := Mpsc.channel _ responseBufferLen
  yielded := []
  once := .pending
  outcomes := []

/-- The run loop of the driver takes the next command that configures the client.  It panics
when the builder has been taken before. -/
def configureClient [DecidableEq B] (s : HttpState B R P) (result : Except BoxError Unit) :
    Option (HttpState B R P) :=
  match s.run, (builders s.sink)[s.configured]? with
  | .next, some builder =>
      if builder ∈ s.taken then some { s with run := .panicked }
      else
        match result with
        | .ok () =>
            some { s with
              taken := builder :: s.taken
              configured := s.configured + 1
              run := .reserve (some s.configured) }
        | .error err =>
            some { s with
              taken := builder :: s.taken
              run := .returned (.error ⟨.builder, err⟩) }
  | _, _ => none

/-- The pairing polls the source: the client that is repeated, or else the first one to
arrive. -/
def pollClient (s : HttpState B R P) : Option (HttpState B R P) :=
  match s.repeated with
  | some client => some { s with client := some client }
  | none =>
      match s.clients.recv with
      | .ready (some (client, clients)) =>
          some { s with clients := clients, repeated := some client, client := some client }
      | _ => none

/-- When the source is polled for a client, it has one.  The channel of clients gives one that is
there whenever it is polled. -/
def hasClient (s : HttpState B R P) : Bool :=
  match s.repeated, s.clients.recv with
  | some _, _ => true
  | none, .ready (some _) => true
  | none, _ => false

theorem hasClient_eq_false {s : HttpState B R P} :
  s.hasClient = false ↔ s.repeated = none ∧ s.clients.queue = []
  := by
  rw [hasClient]
  split
  · simp_all
  · have hq := (Mpsc.recv_eq_some.mp ‹_›).1
    simp_all
  · rename_i hrep hrecv
    refine iff_of_true rfl ⟨hrep, ?_⟩
    cases hq : s.clients.queue with
    | nil => rfl
    | cons client q =>
        obtain ⟨clients, hc⟩ := Mpsc.exists_recv hq
        cases hrecv _ hc

/-- The pairing polls for the default client: it is made once the first request is there, when
the source has no client. -/
def pollDefaultClient (s : HttpState B R P) : Option (HttpState B R P) :=
  match s.hasClient, s.default, requests s.sink with
  | false, false, _ :: _ =>
      match s.clients.reserve none with
      | .ready (some clients) =>
          some { s with clients := clients, default := true, client := some none }
      | .ready none => some { s with default := true, client := some none }
      | .pending => none
  | _, _, _ => none

/-- The stream of clients has ended: the source has none, and the default client has been made
or will never be, as the sink has ended without a request. -/
def clientsEnded (s : HttpState B R P) : Bool :=
  !s.hasClient && (s.default || (s.sinkEnded && (requests s.sink).isEmpty))

/-- The stream of requests has ended. -/
def requestsEnded (s : HttpState B R P) : Bool :=
  s.sinkEnded && decide (s.sent = (requests s.sink).length)

/-- An execution starts.  The loop panics when the request cannot be converted. -/
def execute (convertible : R → Bool) (s : HttpState B R P) (client : Client) (request : R) :
    HttpState B R P :=
  if convertible request = true then
    { s with
      client := none
      request := none
      executions := s.executions ++ [(client, request)]
      executing := s.executing ++ [s.executions.length] }
  else { s with loop := .panicked }

/-- One event, when `convertible` tells which requests can be converted to those of the HTTP
client. -/
def step [DecidableEq B] (convertible : R → Bool) (s : HttpState B R P) :
    HttpEvent B R P → Option (HttpState B R P)
  | .sink command =>
      if s.sinkEnded = true then none else some { s with sink := s.sink ++ [command] }
  | .sinkEnd => some { s with sinkEnded := true }
  | .configureClient result => s.configureClient result
  | .reserveClient =>
      match s.run with
      | .reserve client =>
          match s.clients.reserve client with
          | .ready (some clients) => some { s with run := .next, clients := clients }
          | .ready none => some { s with run := .returned (.ok ()) }
          | .pending => none
      | _ => none
  | .runEnd =>
      if s.run = .next ∧ s.sinkEnded = true ∧ s.configured = (builders s.sink).length then
        some { s with run := .returned (.ok ()) }
      else none
  | .pollClient => if s.loop = .running ∧ s.client = none then s.pollClient else none
  | .pollDefaultClient =>
      if s.loop = .running ∧ s.client = none then s.pollDefaultClient else none
  | .pollRequest =>
      match s.loop, s.request, (requests s.sink)[s.sent]? with
      | .running, none, some (_, request) =>
          some { s with sent := s.sent + 1, request := some request }
      | _, _, _ => none
  | .zip =>
      match s.loop, s.client, s.request with
      | .running, some client, some request => some (s.execute convertible client request)
      | _, _, _ => none
  | .zipEnd =>
      if s.loop = .running ∧ (s.client = none ∧ s.clientsEnded = true ∨
          s.request = none ∧ s.requestsEnded = true) then
        some { s with loop := .flushing }
      else none
  | .execute k result =>
      if s.loop ≠ .panicked ∧ k ∈ s.executing then
        some { s with
          executing := s.executing.erase k
          reserving := s.reserving ++ [(k, result)]
          outcomes := s.outcomes ++ [(k, result)] }
      else none
  | .reserveResponse i =>
      match s.loop, s.reserving[i]? with
      | .panicked, _ => none
      | _, none => none
      | _, some response =>
          match s.channel.reserve response with
          | .ready (some channel) =>
              some { s with reserving := s.reserving.eraseIdx i, channel := channel }
          | .ready none => some { s with reserving := s.reserving.eraseIdx i }
          | .pending => none
  | .loopEnd =>
      match s.loop, s.executing, s.reserving, s.once with
      | .flushing, [], [], .pending =>
          some { s with once := .yielded, channel := s.channel.dropSender }
      | _, _, _, _ => none
  | .yieldResponse =>
      match s.loop, s.once, s.channel.recv with
      | .panicked, _, _ => none
      | _, .ended, _ => none
      | _, _, .ready (some (response, channel)) =>
          some { s with channel := channel, yielded := s.yielded ++ [response] }
      | _, _, _ => none
  | .responsesEnd =>
      match s.loop, s.once with
      | .panicked, _ => none
      | _, .yielded => some { s with once := .ended }
      | _, _ => none

/-- The driver and one stream `responses` as a machine. -/
def machine [DecidableEq B] (convertible : R → Bool) :
    Machine (HttpState B R P) (HttpEvent B R P) where
  step := step convertible

/-- The events of the driver and of `responses`, one case for each way one can happen. -/
inductive Step [DecidableEq B] (convertible : R → Bool) (s : HttpState B R P) :
    HttpEvent B R P → HttpState B R P → Prop where
  | sink (command : HttpCommand B R) : s.sinkEnded = false →
      Step convertible s (.sink command) { s with sink := s.sink ++ [command] }
  | sinkEnd : Step convertible s .sinkEnd { s with sinkEnded := true }
  | builderTaken (builder : B) (result : Except BoxError Unit) : s.run = .next →
      (builders s.sink)[s.configured]? = some builder → builder ∈ s.taken →
      Step convertible s (.configureClient result) { s with run := .panicked }
  | built (builder : B) : s.run = .next → (builders s.sink)[s.configured]? = some builder →
      builder ∉ s.taken →
      Step convertible s (.configureClient (.ok ())) { s with
        taken := builder :: s.taken
        configured := s.configured + 1
        run := .reserve (some s.configured) }
  | buildFailed (builder : B) (err : BoxError) : s.run = .next →
      (builders s.sink)[s.configured]? = some builder → builder ∉ s.taken →
      Step convertible s (.configureClient (.error err)) { s with
        taken := builder :: s.taken
        run := .returned (.error ⟨.builder, err⟩) }
  | sendClient (client : Client) (clients : Mpsc Client clientBufferLen) :
      s.run = .reserve client → s.clients.reserve client = .ready (some clients) →
      Step convertible s .reserveClient { s with run := .next, clients := clients }
  | clientClosed (client : Client) : s.run = .reserve client → s.clients.receiver = false →
      Step convertible s .reserveClient { s with run := .returned (.ok ()) }
  | runEnd : s.run = .next → s.sinkEnded = true → s.configured = (builders s.sink).length →
      Step convertible s .runEnd { s with run := .returned (.ok ()) }
  | repeatClient (client : Client) : s.loop = .running → s.client = none →
      s.repeated = some client →
      Step convertible s .pollClient { s with client := some client }
  | recvClient (client : Client) (clients : Mpsc Client clientBufferLen) : s.loop = .running →
      s.client = none → s.repeated = none → s.clients.recv = .ready (some (client, clients)) →
      Step convertible s .pollClient
        { s with clients := clients, repeated := some client, client := some client }
  | defaultClient (clients : Mpsc Client clientBufferLen) : s.loop = .running → s.client = none →
      s.hasClient = false → s.default = false → requests s.sink ≠ [] →
      s.clients.reserve none = .ready (some clients) →
      Step convertible s .pollDefaultClient
        { s with clients := clients, default := true, client := some none }
  | defaultClosed : s.client = none → s.clients.receiver = false →
      Step convertible s .pollDefaultClient { s with default := true, client := some none }
  | pollRequest (c : ℕ) (request : R) : s.loop = .running → s.request = none →
      (requests s.sink)[s.sent]? = some (c, request) →
      Step convertible s .pollRequest { s with sent := s.sent + 1, request := some request }
  | zip (client : Client) (request : R) : s.loop = .running → s.client = some client →
      s.request = some request → convertible request = true →
      Step convertible s .zip { s with
        client := none
        request := none
        executions := s.executions ++ [(client, request)]
        executing := s.executing ++ [s.executions.length] }
  | zipPanicked (client : Client) (request : R) : s.loop = .running → s.client = some client →
      s.request = some request → convertible request = false →
      Step convertible s .zip { s with loop := .panicked }
  | clientsEnd : s.loop = .running → s.client = none → s.clientsEnded = true →
      Step convertible s .zipEnd { s with loop := .flushing }
  | requestsEnd : s.loop = .running → s.request = none → s.sinkEnded = true →
      s.sent = (requests s.sink).length →
      Step convertible s .zipEnd { s with loop := .flushing }
  | execute (k : ℕ) (result : Except BoxError P) : s.loop ≠ .panicked → k ∈ s.executing →
      Step convertible s (.execute k result) { s with
        executing := s.executing.erase k
        reserving := s.reserving ++ [(k, result)]
        outcomes := s.outcomes ++ [(k, result)] }
  | sendResponse (i : ℕ) (response : ℕ × Except BoxError P)
      (channel : Mpsc (ℕ × Except BoxError P) responseBufferLen) : s.loop ≠ .panicked →
      s.reserving[i]? = some response → s.channel.reserve response = .ready (some channel) →
      Step convertible s (.reserveResponse i)
        { s with reserving := s.reserving.eraseIdx i, channel := channel }
  | responseClosed (i : ℕ) (response : ℕ × Except BoxError P) :
      s.reserving[i]? = some response → s.channel.receiver = false →
      Step convertible s (.reserveResponse i) { s with reserving := s.reserving.eraseIdx i }
  | loopEnd : s.loop = .flushing → s.executing = [] → s.reserving = [] → s.once = .pending →
      Step convertible s .loopEnd
        { s with once := .yielded, channel := s.channel.dropSender }
  | yieldResponse (response : ℕ × Except BoxError P)
      (channel : Mpsc (ℕ × Except BoxError P) responseBufferLen) : s.loop ≠ .panicked →
      s.once ≠ .ended → s.channel.recv = .ready (some (response, channel)) →
      Step convertible s .yieldResponse
        { s with channel := channel, yielded := s.yielded ++ [response] }
  | responsesEnd : s.loop ≠ .panicked → s.once = .yielded →
      Step convertible s .responsesEnd { s with once := .ended }

/-- The machine makes the steps of `Step`. -/
theorem step_of_machine [DecidableEq B] {convertible : R → Bool} {s t : HttpState B R P}
    {e : HttpEvent B R P} (h : (machine convertible).step s e = some t) :
  Step convertible s e t
  := by
  change s.step convertible e = some t at h
  cases e with
  | sink command =>
      simp only [step] at h
      split at h <;> cases h
      apply Step.sink _ ((Bool.not_eq_true _).mp ‹_›)
  | sinkEnd =>
      obtain rfl := Option.some.inj h
      apply Step.sinkEnd
  | configureClient result =>
      simp only [step, configureClient] at h
      split at h
      · split at h
        · cases h
          apply Step.builderTaken _ _ ‹_› ‹_› ‹_›
        · split at h <;> cases h
          · apply Step.built _ ‹_› ‹_› ‹_›
          · apply Step.buildFailed _ _ ‹_› ‹_› ‹_›
      · cases h
  | reserveClient =>
      simp only [step] at h
      split at h
      · split at h <;> cases h
        · apply Step.sendClient _ _ ‹_› ‹_›
        · apply Step.clientClosed _ ‹_› (Mpsc.reserve_eq_none.mp ‹_›)
      · cases h
  | runEnd =>
      simp only [step] at h
      split at h <;> cases h
      obtain ⟨hr, hs, hc⟩ := ‹_ ∧ _›
      apply Step.runEnd hr hs hc
  | pollClient =>
      simp only [step, pollClient] at h
      split at h
      · obtain ⟨hl, hc⟩ := ‹_ ∧ _›
        split at h
        · cases h
          apply Step.repeatClient _ hl hc ‹_›
        · split at h <;> cases h
          apply Step.recvClient _ _ hl hc ‹_› ‹_›
      · cases h
  | pollDefaultClient =>
      simp only [step, pollDefaultClient] at h
      split at h
      · obtain ⟨hl, hc⟩ := ‹_ ∧ _›
        split at h
        · rename_i hhas hdef hreq
          split at h <;> cases h
          · apply Step.defaultClient _ hl hc hhas hdef _ ‹_›
            rw [hreq]
            exact nofun
          · apply Step.defaultClosed hc (Mpsc.reserve_eq_none.mp ‹_›)
        · cases h
      · cases h
  | pollRequest =>
      simp only [step] at h
      split at h <;> cases h
      apply Step.pollRequest _ _ ‹_› ‹_› ‹_›
  | zip =>
      simp only [step, execute] at h
      split at h
      · split at h <;> cases h
        · apply Step.zip _ _ ‹_› ‹_› ‹_› ‹_›
        · apply Step.zipPanicked _ _ ‹_› ‹_› ‹_› ((Bool.not_eq_true _).mp ‹_›)
      · cases h
  | zipEnd =>
      simp only [step] at h
      split at h <;> cases h
      obtain ⟨hl, ⟨hc, he⟩ | ⟨hr, he⟩⟩ := ‹_ ∧ _›
      · apply Step.clientsEnd hl hc he
      · rw [requestsEnded, Bool.and_eq_true, decide_eq_true_eq] at he
        apply Step.requestsEnd hl hr he.1 he.2
  | execute k result =>
      simp only [step] at h
      split at h <;> cases h
      obtain ⟨hl, hk⟩ := ‹_ ∧ _›
      apply Step.execute _ _ hl hk
  | reserveResponse i =>
      simp only [step] at h
      split at h
      · cases h
      · cases h
      · split at h <;> cases h
        · apply Step.sendResponse _ _ _ _ ‹_› ‹_›
          assumption
        · apply Step.responseClosed _ _ ‹_› (Mpsc.reserve_eq_none.mp ‹_›)
  | loopEnd =>
      simp only [step] at h
      split at h <;> cases h
      apply Step.loopEnd ‹_› ‹_› ‹_› ‹_›
  | yieldResponse =>
      simp only [step] at h
      split at h <;> cases h
      apply Step.yieldResponse _ _ ‹_› ‹_› ‹_›
  | responsesEnd =>
      simp only [step] at h
      split at h <;> cases h
      apply Step.responsesEnd ‹_› ‹_›

/-- The steps of `Step` are steps of the machine, as long as the receivers are alive. -/
theorem Step.machine [DecidableEq B] {convertible : R → Bool} {s t : HttpState B R P}
    {e : HttpEvent B R P} (h : Step convertible s e t) (hclients : s.clients.receiver = true)
    (hchannel : s.channel.receiver = true) :
  (machine convertible).step s e = some t
  := by
  change s.step convertible e = some t
  cases h with
  | sink command he => simp [step, he]
  | sinkEnd => rfl
  | builderTaken builder result hr hb ht => simp [step, configureClient, hr, hb, ht]
  | built builder hr hb ht => simp [step, configureClient, hr, hb, ht]
  | buildFailed builder err hr hb ht => simp [step, configureClient, hr, hb, ht]
  | sendClient client clients hr hc => simp [step, hr, hc]
  | clientClosed client hr hc =>
      rw [hclients] at hc
      cases hc
  | runEnd hr he hc => simp [step, hr, he, hc]
  | repeatClient client hl hc hr => simp [step, pollClient, hl, hc, hr]
  | recvClient client clients hl hc hr hcl => simp [step, pollClient, hl, hc, hr, hcl]
  | defaultClient clients hl hc hh hd hq hcl =>
      obtain ⟨use, uses, hu⟩ := List.exists_cons_of_ne_nil hq
      simp [step, pollDefaultClient, hl, hc, hh, hd, hu, hcl]
  | defaultClosed hn hc =>
      rw [hclients] at hc
      cases hc
  | pollRequest c request hl hr hq => simp [step, hl, hr, hq]
  | zip client request hl hc hr hcv => simp [step, HttpState.execute, hl, hc, hr, hcv]
  | zipPanicked client request hl hc hr hcv => simp [step, HttpState.execute, hl, hc, hr, hcv]
  | clientsEnd hl hc he => simp [step, hl, hc, he]
  | requestsEnd hl hr he hs => simp [step, requestsEnded, hl, hr, he, hs]
  | execute k result hl hk => simp [step, hl, hk]
  | sendResponse i response channel hl hr hc =>
      cases hloop : s.loop with
      | panicked => cases hl hloop
      | _ => simp [step, hloop, hr, hc]
  | responseClosed i response hr hc =>
      rw [hchannel] at hc
      cases hc
  | loopEnd hl he hr ho => simp [step, hl, he, hr, ho]
  | yieldResponse response channel hl ho hc =>
      cases hloop : s.loop with
      | panicked => cases hl hloop
      | _ =>
          cases honce : s.once with
          | ended => cases ho honce
          | _ => simp [step, hloop, honce, hc]
  | responsesEnd hl ho =>
      cases hloop : s.loop with
      | panicked => cases hl hloop
      | _ => simp [step, hloop, ho]

end HttpState

end Http

end Cyclers
