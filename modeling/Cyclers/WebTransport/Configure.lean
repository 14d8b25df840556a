import Cyclers.WebTransport.Session
import Cyclers.WebTransport.Source
import Mathlib.Data.List.Infix

/-!
# Configuring the clients

The driver takes the function of each command to configure the client out of its cell, makes a
client with it, and sends the client to the source.  It panics when a clone of the command has had
the function taken before.

The functions are taken only as fast as the clients are.  A stream of sessions polls for a client
only after it has paired those that it has got before, each with a command to establish a session.
So of the clients made one more than there are such commands reaches the source, one is in the
channel, and one awaits a permit.

The driver subscribes to the sink when it is polled for the first time, and so receives only the
commands from there on, whereas a stream that has been obtained before has all of them.
-/

open Async

namespace Cyclers

namespace WebTransport

universe u

variable {F : Type u}

/-- The loop of the driver that makes clients: it awaits the next command that configures the
client, it awaits a permit to send a client, or it has panicked. -/
inductive ConfigureLoop where
  | next
  | reserve : Client → ConfigureLoop
  | panicked
  deriving DecidableEq

/-- The client that awaits a permit. -/
def ConfigureLoop.reserved : ConfigureLoop → List Client
  | .reserve client => [client]
  | _ => []

/-- The cell of the function of a command that configures the client. -/
def configureClientFn : WebTransportCommand F → Option F
  | .configureClient f => some f
  | _ => none

/-- The cells of the functions that configure the client. -/
def configureClientFns (sink : List (WebTransportCommand F)) : List F :=
  sink.filterMap configureClientFn

/-- The number of commands to establish a session. -/
def sessions (sink : List (WebTransportCommand F)) : ℕ :=
  (sink.filterMap establish).length

/-- The driver and the source: the source; the cells whose function has been taken; the number of
commands handled that configure the client; whether the default client has been made; the loop that
makes the clients, and the channel that they go through. -/
structure DriverState (F : Type u) where
  source : SourceState F
  taken : List F
  configured : ℕ
  default : Bool
  loop : ConfigureLoop
  channel : Mpsc Client clientBufferLen

/-- What happens: the driver takes the function of a command that configures the client, which
gives a result; it makes the default client; it is granted a permit to send a client; a stream of
the source polls for a client when it has got all others, and receives one; or what happens
happens to the source. -/
inductive DriverEvent (F : Type u) where
  | configure : Except BoxError Unit → DriverEvent F
  | default : Except BoxError Unit → DriverEvent F
  | send
  | recv : ℕ → DriverEvent F
  | source : SourceEvent F → DriverEvent F

/-- A client is sent to the source, which here it only is when a stream receives it. -/
def SourceEvent.sendsClient : SourceEvent F → Bool
  | .client _ => true
  | _ => false

namespace DriverState

/-- The sink has yielded nothing, and no stream has been obtained. -/
def init (F : Type u) : DriverState F where
  source := SourceState.init F
  taken := []
  configured := 0
  default := false
  loop := .next
  channel := Mpsc.channel Client clientBufferLen

/-- The driver has failed, with an error that ends all of its loops. -/
def fail (s : DriverState F) (err : BoxError) : DriverState F :=
  { s with source := { s.source with failed := some err } }

/-- The commands that the driver receives. -/
def received (s : DriverState F) : List (WebTransportCommand F) :=
  heard s.source.sink s.source.start

/-- The client that the driver makes next, known by the number of its command in the sink. -/
def nextClient (s : DriverState F) : Client :=
  some (configureClients (missed s.source.sink s.source.start) + s.configured)

/-- The driver takes the next command that configures the client.  It panics when the function has
been taken before. -/
def configure [DecidableEq F] (s : DriverState F) (result : Except BoxError Unit) :
    Option (DriverState F) :=
  match s.loop, (configureClientFns s.received)[s.configured]? with
  | .next, some f =>
      if f ∈ s.taken then some { s with loop := .panicked }
      else
        match result with
        | .ok () =>
            some { s with
              taken := f :: s.taken
              configured := s.configured + 1
              loop := .reserve s.nextClient }
        | .error err => some ({ s with taken := f :: s.taken }.fail err)
  | _, _ => none

/-- One event.  The driver makes the default client only once it receives a command to establish a
session, and never once it receives one that configures the client. -/
def step [DecidableEq F] (s : DriverState F) : DriverEvent F → Option (DriverState F)
  | .configure result => if s.source.failed = none then s.configure result else none
  | .default result =>
      if s.source.failed = none ∧ s.loop = .next ∧ s.default = false ∧
          configureClientFns s.received = [] ∧ 0 < sessions s.received then
        match result with
        | .ok () => some { s with default := true, loop := .reserve none }
        | .error err => some (s.fail err)
      else none
  | .send =>
      match s.source.failed, s.loop with
      | none, .reserve client =>
          match s.channel.reserve client with
          | .ready (some channel) => some { s with loop := .next, channel := channel }
          | _ => none
      | _, _ => none
  | .recv j =>
      match s.source.task j, (s.source.streams j).method, s.channel.recv with
      | some (.next none _), .sessionReady, .ready (some (client, channel)) =>
          if (s.source.streams j).nextClient = s.source.clients.length then
            some { s with
              channel := channel
              source := { s.source with clients := s.source.clients ++ [client] } }
          else none
      | _, _, _ => none
  | .source e =>
      if e.sendsClient = true then none
      else (s.source.step e).map fun source => { s with source := source }

/-- The driver and the source as a machine. -/
def machine (F : Type u) [DecidableEq F] : Machine (DriverState F) (DriverEvent F) where
  step := step

/-- The events, one case for each way one can happen. -/
inductive Step [DecidableEq F] (s : DriverState F) : DriverEvent F → DriverState F → Prop where
  | taken (f : F) (result : Except BoxError Unit) : s.source.failed = none → s.loop = .next →
      (configureClientFns s.received)[s.configured]? = some f → f ∈ s.taken →
      Step s (.configure result) { s with loop := .panicked }
  | configured (f : F) : s.source.failed = none → s.loop = .next →
      (configureClientFns s.received)[s.configured]? = some f → f ∉ s.taken →
      Step s (.configure (.ok ())) { s with
        taken := f :: s.taken
        configured := s.configured + 1
        loop := .reserve s.nextClient }
  | configureFailed (f : F) (err : BoxError) : s.loop = .next →
      (configureClientFns s.received)[s.configured]? = some f → f ∉ s.taken →
      Step s (.configure (.error err)) ({ s with taken := f :: s.taken }.fail err)
  | default : s.loop = .next → s.default = false →
      Step s (.default (.ok ())) { s with default := true, loop := .reserve none }
  | defaultFailed (err : BoxError) : Step s (.default (.error err)) (s.fail err)
  | send (client : Client) (channel : Mpsc Client clientBufferLen) : s.source.failed = none →
      s.loop = .reserve client → s.channel.reserve client = .ready (some channel) →
      Step s .send { s with loop := .next, channel := channel }
  | recv (j : ℕ) (establish : Option (ℕ × Url)) (client : Client)
      (channel : Mpsc Client clientBufferLen) : s.source.task j = some (.next none establish) →
      (s.source.streams j).method = .sessionReady →
      s.channel.recv = .ready (some (client, channel)) →
      (s.source.streams j).nextClient = s.source.clients.length →
      Step s (.recv j) { s with
        channel := channel
        source := { s.source with clients := s.source.clients ++ [client] } }
  | source (e : SourceEvent F) (source : SourceState F) : e.sendsClient = false →
      (SourceState.machine F).step s.source e = some source →
      Step s (.source e) { s with source := source }

/-- The machine makes the steps of `Step`. -/
theorem step_of_machine [DecidableEq F] {s t : DriverState F} {e : DriverEvent F}
    (h : (machine F).step s e = some t) :
  Step s e t
  := by
  change s.step e = some t at h
  cases e with
  | configure result =>
      simp only [step] at h
      split at h
      · simp only [configure] at h
        split at h
        · split at h
          · cases h
            apply Step.taken _ _ ‹_› ‹_› ‹_› ‹_›
          · split at h <;> cases h
            · apply Step.configured _ ‹_› ‹_› ‹_› ‹_›
            · apply Step.configureFailed _ _ ‹_› ‹_› ‹_›
        · cases h
      · cases h
  | default result =>
      simp only [step] at h
      split at h
      · obtain ⟨-, hl, hd, -, -⟩ := ‹_ ∧ _›
        split at h <;> cases h
        · apply Step.default hl hd
        · apply Step.defaultFailed
      · cases h
  | send =>
      simp only [step] at h
      split at h
      · split at h <;> cases h
        apply Step.send _ _ ‹_› ‹_› ‹_›
      · cases h
  | recv j =>
      simp only [step] at h
      split at h
      · split at h <;> cases h
        apply Step.recv j _ _ _ ‹_› ‹_› ‹_› ‹_›
      · cases h
  | source e =>
      simp only [step] at h
      split at h
      · cases h
      · obtain ⟨source, hs, rfl⟩ := Option.map_eq_some_iff.mp h
        apply Step.source e source ((Bool.not_eq_true _).mp ‹_›) hs

end DriverState

/-! ### The pace of the streams of sessions -/

theorem sessions_append (sink sink' : List (WebTransportCommand F)) :
  sessions (sink ++ sink') = sessions sink + sessions sink'
  := by
  rw [sessions, List.filterMap_append, List.length_append]
  rfl

/-- Of the clients and the commands to establish a session that a stream of sessions has taken,
those that are not yet paired. -/
def SourceTask.held : SourceTask → Option (ℕ × ℕ)
  | .next client establish => some (client.toList.length, establish.toList.length)
  | .connect _ _ => some (0, 0)
  | .insertSession _ _ => some (0, 0)
  | .item _ => some (0, 0)
  | _ => none

/-- A stream of sessions has taken as many clients as commands to establish a session, but for
those that are not paired, and the `k` by which it was behind when it was obtained. -/
structure SourceStream.Paced (k : ℕ) (sink : List (WebTransportCommand F)) (r : SourceStream) :
    Prop where
  le : r.nextCommand ≤ sink.length
  balance : r.method = .sessionReady → r.task ≠ .dropped →
    ∃ c e, r.task.held = some (c, e) ∧
      r.nextClient + e + k = sessions (sink.take r.nextCommand) + c

/-- A stream of sessions pairs what it has taken, or takes a client, and keeps its pace. -/
theorem SourceStream.Paced.move {k : ℕ} {sink : List (WebTransportCommand F)} {r r' : SourceStream}
    (h : r.Paced k sink) (hd : r.task ≠ .dropped) (hm : r'.method = r.method)
    (hn : r'.nextCommand = r.nextCommand)
    (hheld : r.method = .sessionReady → ∀ c e, r.task.held = some (c, e) →
      ∃ c' e', r'.task.held = some (c', e') ∧ r'.nextClient + e' + c = r.nextClient + e + c') :
  r'.Paced k sink
  := by
  constructor
  · rw [hn]
    exact h.le
  · intro hs _
    rw [hm] at hs
    obtain ⟨c, e, hce, hbalance⟩ := h.balance hs hd
    obtain ⟨c', e', hce', heq⟩ := hheld hs c e hce
    refine ⟨c', e', hce', ?_⟩
    rw [hn]
    omega

namespace SourceState

/-- A command more in the sink leaves the streams in their pace. -/
theorem paced_append {k : ℕ} {sink : List (WebTransportCommand F)} {r : SourceStream}
    (h : r.Paced k sink) (command : WebTransportCommand F) :
  r.Paced k (sink ++ [command])
  := by
  constructor
  · rw [List.length_append]
    apply Nat.le_add_right_of_le h.le
  · rw [List.take_append_of_le_length h.le]
    exact h.balance

/-- Taking the next item of the sink changes the stream only. -/
theorem exists_of_pollCommand {s t : SourceState F} {j : ℕ} {client : Option Client}
    (h : s.pollCommand j client = some t) :
  ∃ r, t = s.set j r
  := by
  simp only [pollCommand] at h
  split at h
  · split at h <;> cases h <;> exact ⟨_, rfl⟩
  · split at h
    · cases h
    · split at h <;> cases h <;> exact ⟨_, rfl⟩
  · cases h

/-- A stream that takes the next item of the sink keeps its pace. -/
theorem paced_pollCommand {k j : ℕ} {s t : SourceState F} {client : Option Client}
    (ht : s.task j = some (.next client none)) (h : (s.streams j).Paced k s.sink)
    (hs : s.pollCommand j client = some t) :
  ∃ r, t = s.set j r ∧ r.Paced k s.sink
  := by
  obtain ⟨-, htask⟩ := task_eq_some.mp ht
  have hbalance := h.balance
  rw [htask] at hbalance
  have hnext : ∀ command, s.sink[(s.streams j).nextCommand]? = some command →
      (s.streams j).nextCommand + 1 ≤ s.sink.length ∧
      sessions (s.sink.take ((s.streams j).nextCommand + 1)) =
        sessions (s.sink.take (s.streams j).nextCommand) + sessions [command] := by
    intro command hget
    refine ⟨(List.getElem?_eq_some_iff.mp hget).1, ?_⟩
    rw [List.take_add_one, hget, sessions_append]
    rfl
  simp only [pollCommand] at hs
  split at hs
  · rename_i command hget hm
    obtain ⟨hle, hsessions⟩ := hnext command hget
    obtain ⟨c, e, hce, hbalance⟩ := hbalance hm SourceTask.noConfusion
    cases hce
    cases hk : establish command with
    | some establish =>
        rw [hk] at hs
        cases hs
        refine ⟨_, rfl, hle, fun _ _ => ⟨_, _, rfl, ?_⟩⟩
        have hone : sessions [command] = 1 := by simp [sessions, hk]
        simp only [Option.toList_some, Option.toList_none, List.length_singleton,
          List.length_nil] at hbalance ⊢
        omega
    | none =>
        rw [hk] at hs
        cases hs
        refine ⟨_, rfl, hle, fun _ _ => ⟨_, _, by rw [htask, SourceTask.held], ?_⟩⟩
        have hzero : sessions [command] = 0 := by simp [sessions, hk]
        dsimp only
        omega
  · rename_i command method sessionId hget hm
    have hle := (hnext command hget).1
    split at hs
    · cases hs
    · split at hs
      · cases hs
        refine ⟨_, rfl, hle, fun hready => ?_⟩
        cases hm.symm.trans hready
      · cases hs
        refine ⟨_, rfl, hle, fun hready => ?_⟩
        cases hm.symm.trans hready
  · cases hs

/-- A stream that is changed keeps the pace of the streams when it keeps its own. -/
theorem paced_set {k j : ℕ} {s s' : SourceState F} (h : (s.streams j).Paced k s.sink)
    (hstreams : s'.streams = s.streams) {j' : ℕ} {r : SourceStream}
    (hr : j' = j → r.Paced k s.sink) :
  ((s'.set j' r).streams j).Paced k s.sink
  := by
  by_cases heq : j = j'
  · subst heq
    rw [set_streams_self]
    apply hr rfl
  · rw [set_streams_of_ne s' heq, hstreams]
    exact h

/-- A stream that pairs what it has taken, or takes a client, keeps the pace of the streams. -/
theorem paced_move {k j : ℕ} {s s' : SourceState F} (h : (s.streams j).Paced k s.sink)
    (hstreams : s'.streams = s.streams) {j' : ℕ} {r : SourceStream} {task : SourceTask}
    (ht : s.task j' = some task) (hd : task ≠ .dropped)
    (hm : r.method = (s.streams j').method)
    (hn : r.nextCommand = (s.streams j').nextCommand)
    (hheld : (s.streams j').method = .sessionReady → ∀ c e, task.held = some (c, e) →
      ∃ c' e', r.task.held = some (c', e') ∧
        r.nextClient + e' + c = (s.streams j').nextClient + e + c') :
  ((s'.set j' r).streams j).Paced k s.sink
  := by
  apply paced_set h hstreams
  rintro rfl
  obtain ⟨-, rfl⟩ := task_eq_some.mp ht
  exact h.move hd hm hn hheld

/-- Any other event keeps the pace of the streams. -/
theorem paced_step {k j : ℕ} {s t : SourceState F} {e : SourceEvent F} (hj : j < s.count)
    (h : (s.streams j).Paced k s.sink) (hs : (machine F).step s e = some t) :
  (t.streams j).Paced k t.sink
  := by
  have heven : ∀ {task task' : SourceTask} {nextClient : ℕ}, task.held = some (0, 0) →
      task'.held = some (0, 0) → ∀ c e, task.held = some (c, e) →
      ∃ c' e', task'.held = some (c', e') ∧ nextClient + e' + c = nextClient + e + c' := by
    intro task task' nextClient ht ht' c e hce
    cases ht.symm.trans hce
    exact ⟨0, 0, ht', rfl⟩
  by_cases hpoll : ∃ j', e = .pollCommand j'
  · obtain ⟨j', rfl⟩ := hpoll
    change s.step (.pollCommand j') = some t at hs
    simp only [step] at hs
    split at hs
    · by_cases heq : j' = j
      · subst heq
        obtain ⟨r, rfl, hr⟩ := paced_pollCommand ‹_› h hs
        apply paced_set h rfl fun _ => hr
      · obtain ⟨r, rfl⟩ := exists_of_pollCommand hs
        apply paced_set h rfl fun h => absurd h heq
    · cases hs
  · cases step_of_machine hs with
    | sink command => exact paced_append h command
    | client client => exact h
    | obtain method =>
        apply paced_set h rfl
        intro heq
        omega
    | drop j' hj' =>
        apply paced_set h rfl
        rintro rfl
        exact ⟨h.le, fun _ hd => absurd rfl hd⟩
    | pollClient j' client establish ht hget =>
        refine paced_move h rfl ht SourceTask.noConfusion rfl rfl ?_
        intro _ c e hce
        cases hce
        refine ⟨1, _, rfl, ?_⟩
        simp only [Option.toList_none, List.length_nil]
        omega
    | skip j' => cases hpoll ⟨j', rfl⟩
    | takeEstablish j' => cases hpoll ⟨j', rfl⟩
    | takeCreate j' => cases hpoll ⟨j', rfl⟩
    | zip j' client i url ht =>
        refine paced_move h rfl ht SourceTask.noConfusion rfl rfl ?_
        intro _ c e hce
        cases hce
        exact ⟨0, 0, rfl, rfl⟩
    | connectFailed j' client url err ht =>
        refine paced_move h rfl ht SourceTask.noConfusion rfl rfl ?_
        exact fun _ => heven rfl rfl
    | connected j' client url stableId ht =>
        refine paced_move h rfl ht SourceTask.noConfusion rfl rfl ?_
        exact fun _ => heven rfl rfl
    | insertSession j' session url ht =>
        refine paced_move h rfl ht SourceTask.noConfusion rfl rfl ?_
        exact fun _ => heven rfl rfl
    | pollReceived j' client method sessionId ht hm =>
        refine paced_move h rfl ht SourceTask.noConfusion rfl rfl ?_
        intro hready
        cases hm.symm.trans hready
    | found j' request ht =>
        refine paced_move h rfl ht SourceTask.noConfusion rfl rfl ?_
        exact fun _ c e hce => by cases hce
    | notFound j' request err ht =>
        refine paced_move h rfl ht SourceTask.noConfusion rfl rfl ?_
        exact fun _ c e hce => by cases hce
    | transportFailed j' request err err' ht =>
        refine paced_move h rfl ht SourceTask.noConfusion rfl rfl ?_
        exact fun _ c e hce => by cases hce
    | accepted j' quicId ht =>
        refine paced_move h rfl ht SourceTask.noConfusion rfl rfl ?_
        exact fun _ c e hce => by cases hce
    | created j' i quicId sendOrder ht =>
        refine paced_move h rfl ht SourceTask.noConfusion rfl rfl ?_
        exact fun _ c e hce => by cases hce
    | panicked j' i quicId sendOrder ht =>
        refine paced_move h rfl ht SourceTask.noConfusion rfl rfl ?_
        exact fun _ c e hce => by cases hce
    | insertStream j' quicId method sessionId ht hm =>
        refine paced_move h rfl ht SourceTask.noConfusion rfl rfl ?_
        exact fun _ c e hce => by cases hce
    | yieldSession j' session url ht =>
        refine paced_move h rfl ht SourceTask.noConfusion rfl rfl ?_
        exact fun _ => heven rfl rfl
    | yieldStream j' id method sessionId ht hm =>
        refine paced_move h rfl ht SourceTask.noConfusion rfl rfl ?_
        exact fun _ => heven rfl rfl
    | yieldOther j' item ht hn =>
        refine paced_move h rfl ht SourceTask.noConfusion rfl rfl ?_
        exact fun _ => heven rfl rfl
    | _ => exact h

/-- What an event of the source, which is not that a client is sent to it, does not undo: commands
stay in the sink, and stay received by the driver, the streams stay, and a failure is final. -/
theorem grows_of_step {s t : SourceState F} {e : SourceEvent F} (he : e.sendsClient = false)
    (hs : (machine F).step s e = some t) :
  s.sink <+: t.sink ∧ heard s.sink s.start <+: heard t.sink t.start ∧ t.clients = s.clients ∧
    (t.failed = none → s.failed = none) ∧ (t.count = s.count ∨ ∃ method, e = .obtain method)
  := by
  cases step_of_machine hs with
  | sink command => exact ⟨List.prefix_append _ _, heard_isPrefix _ _ _, rfl, id, .inl rfl⟩
  | client client => cases he
  | obtain method => exact ⟨List.prefix_rfl, List.prefix_rfl, rfl, id, .inr ⟨method, rfl⟩⟩
  | start hn =>
      refine ⟨List.prefix_rfl, ?_, rfl, id, .inl rfl⟩
      rw [hn]
      apply List.nil_prefix
  | terminate terminated closing failed =>
      refine ⟨List.prefix_rfl, List.prefix_rfl, rfl, fun _ => ?_, .inl rfl⟩
      change s.step .terminate = _ at hs
      simp only [step] at hs
      split at hs
      · obtain ⟨-, -, hf⟩ := ‹_ ∧ _ ∧ _›
        exact hf
      · cases hs
  | sendBytes command w sendEnded failed hget =>
      refine ⟨List.prefix_rfl, List.prefix_rfl, rfl, fun _ => ?_, .inl rfl⟩
      change s.step (.sendBytes w) = _ at hs
      simp only [step] at hs
      split at hs
      · obtain ⟨-, -, hf⟩ := ‹_ ∧ _ ∧ _›
        exact hf
      · cases hs
  | _ => exact ⟨List.prefix_rfl, List.prefix_rfl, rfl, id, .inl rfl⟩

end SourceState

theorem sessions_mono {sink sink' : List (WebTransportCommand F)} (h : sink <+: sink') :
  sessions sink ≤ sessions sink'
  := by
  obtain ⟨rest, rfl⟩ := h
  rw [sessions_append]
  apply Nat.le_add_right

/-! ### The functions taken -/

/-- How many functions are taken at most.  Of the clients made one for each command to establish a
session, and one more, reach the source; some are in the channel; and one awaits a permit. -/
def takenLen (sink : List (WebTransportCommand F)) : ℕ :=
  sessions sink + 1 + clientBufferLen + 1

/-- The first functions of what is received of some commands are among the first of what is received
of more of them. -/
theorem take_configureClientFns {sink sink' received received' : List (WebTransportCommand F)}
    (h : sink <+: sink') (hr : received <+: received') :
  (configureClientFns received).take (takenLen sink) <+:
    (configureClientFns received').take (takenLen sink')
  := by
  have hfns : configureClientFns received <+: configureClientFns received' := hr.filterMap _
  have hle := sessions_mono h
  apply (hfns.take _).trans
  apply List.take_prefix_take_left
  rw [takenLen, takenLen]
  omega

namespace DriverState

/-- The invariant of the driver.  The clients made are with the source, in the channel, or await a
permit; the streams of sessions keep their pace, and so do the clients that have reached the source;
the functions taken are the first ones that are received; and the loop panics only when one of the
first is given twice. -/
structure Inv (s : DriverState F) : Prop where
  made : s.source.clients.length + (s.channel.queue.length + s.loop.reserved.length) =
    s.configured + s.default.toNat
  clients : s.source.clients.length ≤ sessions s.source.sink + 1
  paced : ∀ j < s.source.count, ∃ k, (s.source.streams j).Paced k s.source.sink
  configured : s.configured ≤ (configureClientFns s.received).length
  taken : s.source.failed = none →
    ∀ f ∈ s.taken, f ∈ (configureClientFns s.received).take s.configured
  panicked : s.loop = .panicked →
    ¬ ((configureClientFns s.received).take (takenLen s.source.sink)).Nodup
  receiver : s.channel.receiver = true

theorem Inv.init :
  Inv (init F)
  := by
  constructor <;> simp [DriverState.init, SourceState.init, ConfigureLoop.reserved]

/-- The function that is about to be taken is one of the first. -/
theorem Inv.configured_lt {s : DriverState F} (h : Inv s) (hl : s.loop = .next) :
  s.configured < takenLen s.source.sink
  := by
  have hmade := h.made
  have hclients := h.clients
  have hqueue := s.channel.bounded
  simp only [hl, ConfigureLoop.reserved, List.length_nil] at hmade
  rw [takenLen]
  omega

/-- A stream that polls for a client, and has got all others, has paired them. -/
theorem Inv.clients_le {s : DriverState F} (h : Inv s) {j : ℕ} {establish : Option (ℕ × Url)}
    (ht : s.source.task j = some (.next none establish))
    (hm : (s.source.streams j).method = .sessionReady)
    (hn : (s.source.streams j).nextClient = s.source.clients.length) :
  s.source.clients.length ≤ sessions s.source.sink
  := by
  obtain ⟨hj, ht⟩ := SourceState.task_eq_some.mp ht
  obtain ⟨k, hp⟩ := h.paced j hj
  have hbalance := hp.balance hm
  rw [ht] at hbalance
  obtain ⟨c, e, hce, heq⟩ := hbalance SourceTask.noConfusion
  cases hce
  have hle := sessions_mono (List.take_prefix (s.source.streams j).nextCommand s.source.sink)
  simp only [Option.toList_none, List.length_nil] at heq
  omega

/-- A stream that is obtained starts with the client that was sent last. -/
theorem paced_obtain {s : SourceState F} (h : s.clients.length ≤ sessions s.sink + 1)
    (method : SourceMethod) :
  SourceStream.Paced (sessions s.sink - (s.clients.length - 1)) s.sink
    ⟨method, s.sink.length, s.sink.length, s.clients.length - 1, .next none none⟩
  := by
  refine ⟨Nat.le_refl _, fun _ _ => ⟨0, 0, rfl, ?_⟩⟩
  rw [List.take_length]
  dsimp only
  omega

/-- What happens to the source keeps the invariant. -/
theorem Inv.source {s : DriverState F} (h : Inv s) {e : SourceEvent F} {source : SourceState F}
    (he : e.sendsClient = false) (hs : (SourceState.machine F).step s.source e = some source) :
  Inv { s with source := source }
  := by
  obtain ⟨hsink, hreceived, hclients, hfailed, hcount⟩ := SourceState.grows_of_step he hs
  have hle := sessions_mono hsink
  have hfns : configureClientFns s.received <+: configureClientFns (received { s with source := source }) :=
    hreceived.filterMap _
  refine ⟨?_, ?_, ?_, ?_, ?_, ?_, h.receiver⟩
  · rw [hclients]
    exact h.made
  · rw [hclients]
    apply Nat.le_trans h.clients (Nat.succ_le_succ hle)
  · intro j hj
    by_cases hj' : j < s.source.count
    · obtain ⟨k, hp⟩ := h.paced j hj'
      exact ⟨k, SourceState.paced_step hj' hp hs⟩
    · rcases hcount with hcount | ⟨method, rfl⟩
      · cases hj' (hcount ▸ hj)
      · cases hs
        have heq : j = s.source.count := by
          have hlt : j < s.source.count + 1 := hj
          omega
        subst heq
        use sessions s.source.sink - (s.source.clients.length - 1)
        rw [SourceState.set_streams_self]
        exact paced_obtain h.clients method
  · apply Nat.le_trans h.configured hfns.length_le
  · intro hf f hmem
    obtain ⟨rest, hrest⟩ := hfns
    rw [← hrest, List.take_append_of_le_length h.configured]
    apply h.taken (hfailed hf) f hmem
  · intro hl hn
    apply h.panicked hl ((take_configureClientFns hsink hreceived).sublist.nodup hn)

/-- An event keeps the invariant. -/
theorem Inv.step [DecidableEq F] {s t : DriverState F} {e : DriverEvent F} (h : Inv s)
    (hs : Step s e t) :
  Inv t
  := by
  cases hs with
  | taken f result hf hl hget ht =>
      have hmem := h.taken hf f ht
      have hmade := h.made
      rw [hl] at hmade
      refine ⟨hmade, h.clients, h.paced, h.configured, h.taken, fun _ => ?_, h.receiver⟩
      apply not_nodup_take hmem hget (h.configured_lt hl)
  | configured f hf hl hget ht =>
      have hmade := h.made
      rw [hl] at hmade
      refine ⟨?_, h.clients, h.paced, (List.getElem?_eq_some_iff.mp hget).1, ?_,
        ConfigureLoop.noConfusion, h.receiver⟩
      · simp only [ConfigureLoop.reserved, List.length_nil, List.length_singleton] at hmade ⊢
        omega
      · intro _ f' hmem
        change f' ∈ (configureClientFns s.received).take (s.configured + 1)
        rw [List.take_add_one, hget]
        rcases List.mem_cons.mp hmem with rfl | hmem
        · simp
        · apply List.mem_append_left _ (h.taken hf f' hmem)
  | configureFailed f err hl hget ht =>
      exact ⟨h.made, h.clients, h.paced, h.configured, fun hf => absurd hf (Option.some_ne_none err),
        h.panicked, h.receiver⟩
  | default hl hd =>
      have hmade := h.made
      rw [hl, hd] at hmade
      refine ⟨?_, h.clients, h.paced, h.configured, h.taken, ConfigureLoop.noConfusion, h.receiver⟩
      simp only [ConfigureLoop.reserved, List.length_nil, List.length_singleton, Bool.toNat_false,
        Bool.toNat_true] at hmade ⊢
      omega
  | defaultFailed err =>
      exact ⟨h.made, h.clients, h.paced, h.configured, fun hf => absurd hf (Option.some_ne_none err),
        h.panicked, h.receiver⟩
  | send client channel hf hl hc =>
      obtain ⟨-, -, hq, -, hr⟩ := Mpsc.reserve_eq_some.mp hc
      have hmade := h.made
      rw [hl] at hmade
      refine ⟨?_, h.clients, h.paced, h.configured, h.taken, ConfigureLoop.noConfusion, hr⟩
      rw [hq, List.length_append]
      exact hmade
  | recv j establish client channel ht hm hc hn =>
      obtain ⟨hq, -, hr⟩ := Mpsc.recv_eq_some.mp hc
      have hmade := h.made
      have hle := h.clients_le ht hm hn
      rw [hq, List.length_cons] at hmade
      refine ⟨?_, ?_, h.paced, h.configured, h.taken, h.panicked, hr.trans h.receiver⟩
      · dsimp only
        rw [List.length_append, List.length_singleton]
        omega
      · dsimp only
        rw [List.length_append]
        apply Nat.succ_le_succ hle
  | source e source he hs => exact h.source he hs

/-- The invariant holds of every state reached. -/
theorem Inv.of_run [DecidableEq F] {tr : List (DriverEvent F)} {s : DriverState F}
    (h : (machine F).run (DriverState.init F) tr = some s) :
  Inv s
  := by
  apply (machine F).run_invariant Inv.init _ h
  intro s e t hs ht
  apply hs.step (step_of_machine ht)

end DriverState

end WebTransport

end Cyclers
