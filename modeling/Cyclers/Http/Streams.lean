import Cyclers.Async.Subscriber
import Cyclers.Http.Driver

/-!
# Several streams of responses

Each stream `responses` of a source has a loop of executions of its own: it takes clients and
requests, pairs them and executes the requests.  All streams of a source take their requests from
the one sink, and their clients from the one shared stream of clients, of which each gets every
client from the time on at which it is obtained.
-/

open Async

namespace Cyclers

namespace Http

universe u

variable {B R : Type u} {convertible : R → Bool}

/-- One stream `responses`: the positions in the sink and among the shared clients from which it
goes on, that in the sink at which it was obtained, whether it has made the default client, the
client and the request that await to be paired, with the position of the request, and whether it
has panicked. -/
structure ResponsesStream (R : Type u) where
  start : ℕ
  next : ℕ
  clients : ℕ
  default : Bool
  client : Option Client
  request : Option (ℕ × R)
  panicked : Bool

/-- The driver, as far as it makes clients, and the streams of a source: the commands that the
sink has yielded; the number of clients built, and the client that awaits a permit; the channel;
the client that is repeated, and all clients that the shared stream has yielded; the number of
streams obtained, and the streams; and the executions, by stream and by position of the request in
the sink. -/
structure StreamsState (B R : Type u) where
  sink : List (HttpCommand B R)
  configured : ℕ
  reserve : Option Client
  channel : Mpsc Client clientBufferLen
  repeated : Option Client
  shared : List Client
  count : ℕ
  streams : ℕ → ResponsesStream R
  executions : List (ℕ × ℕ)

/-- What happens: the sink yields a command; the driver builds the client of the next command that
configures it, or is granted a permit to send it; a stream is obtained; a stream polls for a
client, for the default client, for a request, or pairs a client and a request. -/
inductive StreamsEvent (B R : Type u) where
  | sink : HttpCommand B R → StreamsEvent B R
  | configureClient
  | reserveClient
  | responses
  | pollClient : ℕ → StreamsEvent B R
  | pollDefaultClient : ℕ → StreamsEvent B R
  | pollRequest : ℕ → StreamsEvent B R
  | zip : ℕ → StreamsEvent B R

/-- A command is to send a request. -/
def HttpCommand.isRequest : HttpCommand B R → Bool
  | .sendRequest _ => true
  | .configureClient _ => false

/-- A stream, as a subscriber of the sink that keeps the requests. -/
def ResponsesStream.subscriber (r : ResponsesStream R) : Subscriber (HttpCommand B R) where
  keeps := HttpCommand.isRequest
  start := r.start
  next := r.next
  pending := r.request.map Prod.fst

namespace StreamsState

/-- The sink has yielded nothing, and no stream has been obtained. -/
def init (B R : Type u) : StreamsState B R where
  sink := []
  configured := 0
  reserve := none
  channel := Mpsc.channel Client clientBufferLen
  repeated := none
  shared := []
  count := 0
  streams _ := ⟨0, 0, 0, false, none, none, false⟩
  executions := []

/-- The shared stream yields one more client: the one that is repeated, or else the first one to
arrive. -/
def pull (s : StreamsState B R) : Option (Client × StreamsState B R) :=
  match s.repeated with
  | some client => some (client, { s with shared := s.shared ++ [client] })
  | none =>
      match s.channel.recv with
      | .ready (some (client, channel)) =>
          some (client, { s with
            channel := channel
            repeated := some client
            shared := s.shared ++ [client] })
      | _ => none

/-- Change the stream `j`. -/
def set (s : StreamsState B R) (j : ℕ) (r : ResponsesStream R) : StreamsState B R :=
  { s with streams := Function.update s.streams j r }

/-- The stream `j` polls the shared stream for a client. -/
def pollClient (s : StreamsState B R) (j : ℕ) : Option (StreamsState B R) :=
  match s.shared[(s.streams j).clients]? with
  | some client =>
      some (s.set j { s.streams j with
        clients := (s.streams j).clients + 1, client := some client })
  | none =>
      match s.pull with
      | some (client, s) =>
          some (s.set j { s.streams j with clients := s.shared.length, client := some client })
      | none => none

/-- The stream `j`, whose source has no client, makes the default one and sends it to the source,
when a request is there. -/
def pollDefaultClient (s : StreamsState B R) (j : ℕ) : Option (StreamsState B R) :=
  match s.shared[(s.streams j).clients]?, s.pull, (s.streams j).default,
      (s.sink.drop (s.streams j).start).any HttpCommand.isRequest with
  | none, none, false, true =>
      match s.channel.reserve none with
      | .ready (some channel) =>
          some ({ s with channel := channel }.set j
            { s.streams j with default := true, client := some none })
      | .ready none => some (s.set j { s.streams j with default := true, client := some none })
      | .pending => none
  | _, _, _, _ => none

/-- The stream `j` takes the next item of the sink: a request, or a command that is passed over. -/
def pollRequest (s : StreamsState B R) (j : ℕ) : Option (StreamsState B R) :=
  match s.sink[(s.streams j).next]? with
  | some (.sendRequest request) =>
      some (s.set j { s.streams j with
        next := (s.streams j).next + 1, request := some ((s.streams j).next, request) })
  | some (.configureClient _) =>
      some (s.set j { s.streams j with next := (s.streams j).next + 1 })
  | none => none

/-- The stream `j` pairs its client and its request, and executes the request.  It panics when the
request cannot be converted. -/
def zip (convertible : R → Bool) (s : StreamsState B R) (j : ℕ) : Option (StreamsState B R) :=
  match (s.streams j).client, (s.streams j).request with
  | some _, some (i, request) =>
      if convertible request then
        some ({ s with executions := s.executions ++ [(j, i)] }.set j
          { s.streams j with client := none, request := none })
      else some (s.set j { s.streams j with panicked := true })
  | _, _ => none

/-- One event, when `convertible` tells which requests can be converted to those of the HTTP
client. -/
def step (convertible : R → Bool) (s : StreamsState B R) :
    StreamsEvent B R → Option (StreamsState B R)
  | .sink command => some { s with sink := s.sink ++ [command] }
  | .configureClient =>
      if s.reserve = none ∧ s.configured < (builders s.sink).length then
        some { s with configured := s.configured + 1, reserve := some (some s.configured) }
      else none
  | .reserveClient =>
      match s.reserve with
      | some client =>
          match s.channel.reserve client with
          | .ready (some channel) => some { s with reserve := none, channel := channel }
          | _ => none
      | none => none
  | .responses =>
      some ({ s with count := s.count + 1 }.set s.count
        ⟨s.sink.length, s.sink.length, s.shared.length, false, none, none, false⟩)
  | .pollClient j =>
      if j < s.count ∧ (s.streams j).panicked = false ∧ (s.streams j).client = none then
        s.pollClient j
      else none
  | .pollDefaultClient j =>
      if j < s.count ∧ (s.streams j).panicked = false ∧ (s.streams j).client = none then
        s.pollDefaultClient j
      else none
  | .pollRequest j =>
      if j < s.count ∧ (s.streams j).panicked = false ∧ (s.streams j).request = none then
        s.pollRequest j
      else none
  | .zip j =>
      if j < s.count ∧ (s.streams j).panicked = false then s.zip convertible j else none

/-- The streams of a source as a machine. -/
def machine (convertible : R → Bool) : Machine (StreamsState B R) (StreamsEvent B R) where
  step := step convertible

/-! ### Each stream executes a request at most once -/

/-- The streams of the source as subscribers of the sink. -/
def subscribers (s : StreamsState B R) : ℕ → Subscriber (HttpCommand B R) :=
  fun j => (s.streams j).subscriber

/-- The streams execute the requests in turn. -/
def Executed (s : StreamsState B R) : Prop :=
  Subscribed s.sink s.count s.subscribers s.executions

theorem Executed.init :
  Executed (init B R)
  := by
  refine ⟨?_, InTurn.nil _, nofun⟩
  intro j
  apply Subscriber.Fits.new

/-- Changing a stream changes its subscriber. -/
theorem subscribers_set (s : StreamsState B R) (j : ℕ) (r : ResponsesStream R) :
  (s.set j r).subscribers = Function.update s.subscribers j r.subscriber
  := by
  funext j'
  apply Function.apply_update fun _ => ResponsesStream.subscriber

/-- A stream moves without executing a request. -/
theorem Executed.set {s : StreamsState B R} (h : Executed s) {j : ℕ} (hj : j < s.count)
    {r : ResponsesStream R}
    (hm : Subscriber.Move s.sink (s.subscribers j) none r.subscriber) :
  Executed (s.set j r)
  := by
  rw [Executed, subscribers_set]
  apply h.move_none hj hm

/-- The shared stream of clients changes nothing of the streams. -/
theorem Executed.pull {s t : StreamsState B R} (h : Executed s) {client : Client}
    (hp : s.pull = some (client, t)) :
  Executed t ∧ t.count = s.count ∧ t.streams = s.streams
  := by
  simp only [StreamsState.pull] at hp
  split at hp
  · cases hp
    exact ⟨h, rfl, rfl⟩
  · split at hp
    · cases hp
      exact ⟨h, rfl, rfl⟩
    · cases hp

theorem Executed.pollClient {s t : StreamsState B R} (h : Executed s) {j : ℕ} (hj : j < s.count)
    (hp : s.pollClient j = some t) :
  Executed t
  := by
  simp only [StreamsState.pollClient] at hp
  split at hp
  · cases hp
    apply h.set hj
    exact Subscriber.Move.stay
  · split at hp
    · rename_i client u hu
      cases hp
      obtain ⟨hu, hcount, hstreams⟩ := h.pull hu
      apply hu.set
      · rw [hcount]
        exact hj
      · rw [subscribers, hstreams]
        exact Subscriber.Move.stay
    · cases hp

theorem Executed.pollDefaultClient {s t : StreamsState B R} (h : Executed s) {j : ℕ}
    (hj : j < s.count) (hp : s.pollDefaultClient j = some t) :
  Executed t
  := by
  simp only [StreamsState.pollDefaultClient] at hp
  split at hp
  · split at hp
    · rename_i channel _
      cases hp
      have hc : Executed { s with channel := channel } := h
      apply hc.set hj
      exact Subscriber.Move.stay
    · cases hp
      apply h.set hj
      exact Subscriber.Move.stay
    · cases hp
  · cases hp

/-- A stream takes a request, or passes over a command. -/
theorem Executed.pollRequest {s t : StreamsState B R} (h : Executed s) {j : ℕ} (hj : j < s.count)
    (hr : (s.streams j).request = none) (hp : s.pollRequest j = some t) :
  Executed t
  := by
  have hn : (s.subscribers j).pending = none := by
    rw [subscribers, ResponsesStream.subscriber, hr]
    rfl
  simp only [StreamsState.pollRequest] at hp
  split at hp
  · rename_i request hget
    cases hp
    apply h.set hj
    apply Subscriber.Move.take _ hn hget rfl
  · rename_i builder hget
    cases hp
    apply h.set hj
    exact Subscriber.Move.skip _ hn hget
  · cases hp

/-- A stream executes its request. -/
theorem Executed.zip {s t : StreamsState B R} (h : Executed s) {j : ℕ} (hj : j < s.count)
    (hp : s.zip convertible j = some t) :
  Executed t
  := by
  simp only [StreamsState.zip] at hp
  split at hp
  · rename_i i request _ hr
    split at hp
    · cases hp
      have hi : (s.subscribers j).pending = some i := by
        rw [subscribers, ResponsesStream.subscriber, hr]
        rfl
      rw [Executed, subscribers_set]
      apply h.move hj (Subscriber.Move.act i hi)
    · cases hp
      apply h.set hj
      exact Subscriber.Move.stay
  · cases hp

/-- An event keeps the streams in turn. -/
theorem Executed.step {s t : StreamsState B R} {e : StreamsEvent B R} (h : Executed s)
    (hs : (machine convertible).step s e = some t) :
  Executed t
  := by
  change s.step convertible e = some t at hs
  cases e with
  | sink command =>
      cases hs
      apply h.append
  | configureClient =>
      simp only [StreamsState.step] at hs
      split at hs <;> cases hs
      exact h
  | reserveClient =>
      simp only [StreamsState.step] at hs
      split at hs
      · split at hs <;> cases hs
        exact h
      · cases hs
  | responses =>
      cases hs
      have hsub := h.subscribe HttpCommand.isRequest
      rw [Executed, subscribers_set]
      exact hsub
  | pollClient j =>
      simp only [StreamsState.step] at hs
      split at hs
      · apply h.pollClient (And.left ‹_›) hs
      · cases hs
  | pollDefaultClient j =>
      simp only [StreamsState.step] at hs
      split at hs
      · apply h.pollDefaultClient (And.left ‹_›) hs
      · cases hs
  | pollRequest j =>
      simp only [StreamsState.step] at hs
      split at hs
      · rename_i hg
        apply h.pollRequest hg.1 hg.2.2 hs
      · cases hs
  | zip j =>
      simp only [StreamsState.step] at hs
      split at hs
      · apply h.zip (And.left ‹_›) hs
      · cases hs

/-- The streams execute the requests in turn in every state reached. -/
theorem Executed.of_run {tr : List (StreamsEvent B R)} {s : StreamsState B R}
    (h : (machine convertible).run (StreamsState.init B R) tr = some s) :
  Executed s
  := by
  apply (machine convertible).run_invariant Executed.init _ h
  intro s e t hs ht
  apply hs.step ht

end StreamsState

end Http

end Cyclers
