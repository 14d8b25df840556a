import Cyclers.Async.Machine
import Cyclers.WebTransport.SendBytes

/-!
# Registering streams

Four methods of the source register the streams that are created or received, of all
sessions, in one map under their QUIC ids.  A QUIC id is unique within one connection only,
so the id that was handed out for a stream denotes that stream as long as no stream of
another session has the same QUIC id.
-/

open Async

namespace Cyclers

namespace WebTransport

/-- Why creating or receiving a stream fails. -/
inductive StreamErrorKind where
  | sessionNotFound
  | invalidTransportState
  deriving DecidableEq

/-- The error of creating or receiving a stream. -/
structure StreamError where
  kind : StreamErrorKind
  inner : BoxError
  deriving DecidableEq

/-- Register the stream that the transport opens or accepts, as `stream` makes it, when the
session is found. -/
def registerStream (stream : Origin → Stream) (found : Bool) (result : Except BoxError Origin)
    (streams : StreamMap) : StreamMap × Except StreamError StreamId :=
  if found then
    match result with
    | .error err => (streams, .error ⟨.invalidTransportState, err⟩)
    | .ok origin =>
        (Function.update streams ⟨origin.quicId⟩ (some (stream origin)), .ok ⟨origin.quicId⟩)
  else (streams, .error ⟨.sessionNotFound, "could not find session"⟩)

def uniStreamCreated : Bool → Except BoxError Origin → StreamMap →
    StreamMap × Except StreamError StreamId :=
  registerStream fun origin => .outgoingUni ⟨origin, [], false⟩

def biStreamCreated : Bool → Except BoxError Origin → StreamMap →
    StreamMap × Except StreamError StreamId :=
  registerStream fun origin => .outgoingBi ⟨origin, [], false⟩ ⟨origin⟩

def uniStreamReceived : Bool → Except BoxError Origin → StreamMap →
    StreamMap × Except StreamError StreamId :=
  registerStream fun origin => .incomingUni ⟨origin⟩

def biStreamReceived : Bool → Except BoxError Origin → StreamMap →
    StreamMap × Except StreamError StreamId :=
  registerStream fun origin => .incomingBi ⟨origin, [], false⟩ ⟨origin⟩

/-- The four methods that yield streams. -/
inductive StreamMethod where
  | uniStreamCreated
  | biStreamCreated
  | uniStreamReceived
  | biStreamReceived
  deriving DecidableEq

/-- What a method does when the transport opens or accepts a stream. -/
def StreamMethod.poll : StreamMethod → Bool → Except BoxError Origin → StreamMap →
    StreamMap × Except StreamError StreamId
  | .uniStreamCreated => WebTransport.uniStreamCreated
  | .biStreamCreated => WebTransport.biStreamCreated
  | .uniStreamReceived => WebTransport.uniStreamReceived
  | .biStreamReceived => WebTransport.biStreamReceived

/-- A method registers the stream that it yields under the QUIC id of the stream. -/
theorem StreamMethod.poll_ok (method : StreamMethod) (origin : Origin) (streams : StreamMap) :
  ∃ stream : Stream, stream.Of origin ∧
    method.poll true (.ok origin) streams =
      (Function.update streams ⟨origin.quicId⟩ (some stream), .ok ⟨origin.quicId⟩)
  := by
  cases method with
  | uniStreamCreated => exact ⟨.outgoingUni _, ⟨fun _ h => by cases h; rfl, nofun⟩, rfl⟩
  | biStreamCreated =>
      exact ⟨.outgoingBi _ _, ⟨fun _ h => by cases h; rfl, fun _ h => by cases h; rfl⟩, rfl⟩
  | uniStreamReceived => exact ⟨.incomingUni _, ⟨nofun, fun _ h => by cases h; rfl⟩, rfl⟩
  | biStreamReceived =>
      exact ⟨.incomingBi _ _, ⟨fun _ h => by cases h; rfl, fun _ h => by cases h; rfl⟩, rfl⟩

/-- A method that fails registers nothing. -/
theorem StreamMethod.poll_error (method : StreamMethod) (found : Bool) (err : BoxError)
    (streams : StreamMap) :
  (method.poll found (.error err) streams).1 = streams
  := by
  cases method <;> cases found <;> rfl

theorem StreamMethod.poll_notFound (method : StreamMethod) (result : Except BoxError Origin)
    (streams : StreamMap) :
  (method.poll false result streams).1 = streams
  := by
  cases method <;> rfl

/-! ### The machine -/

/-- The sessions and the streams of a driver.  What follows is kept for the statements only:
the ids yielded, each with the stream it was yielded for, and the uses made of ids, each with
the stream that was reached. -/
structure StreamState where
  sessions : SessionId → Bool
  streams : StreamMap
  yielded : List (StreamId × Origin)
  reached : List (StreamId × Origin)

/-- What happens to the streams: a session is established; the transport opens or accepts a
stream with some QUIC id, or fails, for a method; a command to send bytes is handled; bytes
are read from a stream. -/
inductive StreamEvent where
  | established : SessionId → StreamEvent
  | method : StreamMethod → SessionId → Except BoxError ℕ → StreamEvent
  | sendBytes : SendBytesCommand → WriteOutcome → StreamEvent
  | bytesReceived : StreamId → StreamEvent
  deriving DecidableEq

namespace StreamState

/-- No session is established. -/
def init : StreamState where
  sessions _ := false
  streams _ := none
  yielded := []
  reached := []

/-- One event.  A QUIC id is unique within one connection, and each session has its own: the
transport does not open or accept the same stream of a session twice. -/
def step (s : StreamState) : StreamEvent → Option StreamState
  | .established session =>
      some { s with sessions := Function.update s.sessions session true }
  | .method method session (.error err) =>
      some { s with streams := (method.poll (s.sessions session) (.error err) s.streams).1 }
  | .method method session (.ok quicId) =>
      if s.sessions session = true then
        if ⟨session, quicId⟩ ∈ s.yielded.map Prod.snd then none
        else
          match method.poll true (.ok ⟨session, quicId⟩) s.streams with
          | (streams, .ok id) =>
              some { s with
                streams := streams
                yielded := s.yielded ++ [(id, ⟨session, quicId⟩)] }
          | (streams, .error _) => some { s with streams := streams }
      else
        some { s with streams := (method.poll false (.ok ⟨session, quicId⟩) s.streams).1 }
  | .sendBytes command w =>
      some { s with
        streams := (sendBytesUnfold s.streams command w).1
        reached := s.reached ++
          ((s.streams.tx command.streamId).map fun tx => (command.streamId, tx.origin)).toList }
  | .bytesReceived id =>
      some { s with
        reached := s.reached ++
          (((s.streams id).bind Stream.rx).map fun rx => (id, rx.origin)).toList }

/-- The streams as a machine. -/
def machine : Machine StreamState StreamEvent where
  step := step

/-- The events of the streams, one case for each way one can happen. -/
inductive Step (s : StreamState) : StreamEvent → StreamState → Prop where
  | established (session : SessionId) :
      Step s (.established session)
        { s with sessions := Function.update s.sessions session true }
  | fail (method : StreamMethod) (session : SessionId) (err : BoxError) :
      Step s (.method method session (.error err)) s
  | notFound (method : StreamMethod) (session : SessionId) (quicId : ℕ) :
      s.sessions session = false → Step s (.method method session (.ok quicId)) s
  | insert (method : StreamMethod) (origin : Origin) (stream : Stream) :
      s.sessions origin.session = true → origin ∉ s.yielded.map Prod.snd → stream.Of origin →
      Step s (.method method origin.session (.ok origin.quicId)) { s with
        streams := Function.update s.streams ⟨origin.quicId⟩ (some stream)
        yielded := s.yielded ++ [(⟨origin.quicId⟩, origin)] }
  | sendBytes (command : SendBytesCommand) (w : WriteOutcome) :
      Step s (.sendBytes command w) { s with
        streams := (sendBytesUnfold s.streams command w).1
        reached := s.reached ++
          ((s.streams.tx command.streamId).map fun tx => (command.streamId, tx.origin)).toList }
  | bytesReceived (id : StreamId) :
      Step s (.bytesReceived id) { s with
        reached := s.reached ++
          (((s.streams id).bind Stream.rx).map fun rx => (id, rx.origin)).toList }

/-- The machine makes the steps of `Step`. -/
theorem step_of_machine {s t : StreamState} {e : StreamEvent} (h : machine.step s e = some t) :
  Step s e t
  := by
  change s.step e = some t at h
  cases e with
  | established session =>
      obtain rfl := Option.some.inj h
      apply Step.established
  | method method session result =>
      cases result with
      | error err =>
          obtain rfl := Option.some.inj h
          rw [StreamMethod.poll_error]
          apply Step.fail
      | ok quicId =>
          obtain ⟨stream, hof, hpoll⟩ := method.poll_ok ⟨session, quicId⟩ s.streams
          simp only [step, hpoll, StreamMethod.poll_notFound] at h
          split at h
          · split at h <;> cases h
            apply Step.insert method ⟨session, quicId⟩ stream ‹_› ‹_› hof
          · cases h
            apply Step.notFound
            apply (Bool.not_eq_true _).mp ‹_›
  | sendBytes command w =>
      obtain rfl := Option.some.inj h
      apply Step.sendBytes
  | bytesReceived id =>
      obtain rfl := Option.some.inj h
      apply Step.bytesReceived

/-! ### What an id denotes -/

/-- Every id yielded denotes the stream it was yielded for. -/
def Denotes (s : StreamState) : Prop :=
  ∀ id origin, (id, origin) ∈ s.yielded →
    ∃ stream, s.streams id = some stream ∧ stream.Of origin

/-- Every use of an id reached the stream it was yielded for. -/
def Reaches (s : StreamState) : Prop :=
  ∀ id origin origin', (id, origin) ∈ s.reached → (id, origin') ∈ s.yielded → origin = origin'

/-- No two of the streams yielded, which are of different sessions, have the same QUIC id. -/
def Distinct (s : StreamState) : Prop :=
  ∀ id id' origin origin', (id, origin) ∈ s.yielded → (id', origin') ∈ s.yielded →
    origin.quicId = origin'.quicId → origin = origin'

/-- The invariant of the streams. -/
structure Inv (s : StreamState) : Prop where
  id : ∀ id origin, (id, origin) ∈ s.yielded → id = ⟨origin.quicId⟩
  registered : ∀ id stream, s.streams id = some stream →
    ∃ origin, (id, origin) ∈ s.yielded ∧ stream.Of origin
  yielded : ∀ id origin, (id, origin) ∈ s.yielded → s.streams id ≠ none
  reached : ∀ id origin, (id, origin) ∈ s.reached → (id, origin) ∈ s.yielded

theorem Inv.init :
  Inv init
  := by
  constructor <;> simp [StreamState.init]

/-- Handling a command to send bytes changes what is registered under an id by replacing the
sending side only. -/
theorem sendBytesUnfold_map (streams : StreamMap) (command : SendBytesCommand) (w : WriteOutcome)
    (id : StreamId) :
  (sendBytesUnfold streams command w).1 id = streams id ∨
    ∃ stream tx tx', streams id = some stream ∧ stream.tx = some tx ∧ tx'.origin = tx.origin ∧
      (sendBytesUnfold streams command w).1 id = some (stream.setTx tx')
  := by
  have hset : ∀ stream tx tx', streams command.streamId = some stream → stream.tx = some tx →
      tx'.origin = tx.origin →
      Function.update streams command.streamId (some (stream.setTx tx')) id = streams id ∨
      ∃ stream₁ tx₁ tx₁', streams id = some stream₁ ∧ stream₁.tx = some tx₁ ∧
        tx₁'.origin = tx₁.origin ∧
        Function.update streams command.streamId (some (stream.setTx tx')) id =
          some (stream₁.setTx tx₁') := by
    intro stream tx tx' hs htx ho
    by_cases hid : id = command.streamId
    · subst hid
      rw [Function.update_self]
      exact .inr ⟨stream, tx, tx', hs, htx, ho, rfl⟩
    · exact .inl (Function.update_of_ne hid _ _)
  unfold sendBytesUnfold
  split
  · exact .inl rfl
  · split
    · exact .inl rfl
    · split
      · refine hset _ _ _ ‹_› ‹_› ?_
        rfl
      · split
        · refine hset _ _ _ ‹_› ‹_› ?_
          rfl
        · refine hset _ _ _ ‹_› ‹_› ?_
          rfl

/-- Handling a command to send bytes leaves each id what it denotes. -/
theorem sendBytesUnfold_keeps (streams : StreamMap) (command : SendBytesCommand)
    (w : WriteOutcome) (id : StreamId) :
  (streams id = none ∧ (sendBytesUnfold streams command w).1 id = none) ∨
    ∃ stream stream', streams id = some stream ∧
      (sendBytesUnfold streams command w).1 id = some stream' ∧
      ∀ origin, stream.Of origin → stream'.Of origin
  := by
  rcases sendBytesUnfold_map streams command w id with heq | ⟨stream, tx, tx', hs, htx, ho, hnew⟩
  · rw [heq]
    cases h : streams id with
    | none => exact .inl ⟨rfl, rfl⟩
    | some stream => exact .inr ⟨stream, stream, rfl, rfl, fun _ h => h⟩
  · exact .inr ⟨stream, _, hs, hnew, fun _ h => h.setTx htx ho⟩

/-- An event of the streams keeps their invariant. -/
theorem Inv.step {s t : StreamState} {e : StreamEvent} (h : Inv s) (hs : Step s e t) :
  Inv t
  := by
  obtain ⟨hid, registered, yielded, reached⟩ := h
  cases hs with
  | established session => exact ⟨hid, registered, yielded, reached⟩
  | fail method session err => exact ⟨hid, registered, yielded, reached⟩
  | notFound method session quicId hn => exact ⟨hid, registered, yielded, reached⟩
  | insert method origin stream hsession hfresh hof =>
      constructor
      · intro id o hmem
        rcases List.mem_append.mp hmem with hmem | hmem
        · apply hid id o hmem
        · cases List.mem_singleton.mp hmem
          rfl
      · intro id stream' hs
        by_cases hkey : id = ⟨origin.quicId⟩
        · subst hkey
          dsimp only at hs
          rw [Function.update_self] at hs
          obtain rfl := Option.some.inj hs
          use origin
          constructor
          · simp
          · exact hof
        · dsimp only at hs
          rw [Function.update_of_ne hkey] at hs
          obtain ⟨o, hmem, ho⟩ := registered id stream' hs
          use o
          constructor
          · apply List.mem_append_left _ hmem
          · exact ho
      · intro id o hmem
        by_cases hkey : id = ⟨origin.quicId⟩
        · subst hkey
          simp
        · dsimp only
          rw [Function.update_of_ne hkey]
          rcases List.mem_append.mp hmem with hmem | hmem
          · apply yielded id o hmem
          · cases List.mem_singleton.mp hmem
            cases hkey rfl
      · intro id o hmem
        apply List.mem_append_left _ (reached id o hmem)
  | sendBytes command w =>
      have hkeeps := sendBytesUnfold_keeps s.streams command w
      constructor
      · exact hid
      · intro id stream' hs
        dsimp only at hs
        rcases hkeeps id with ⟨-, hnone⟩ | ⟨stream, stream'', hold, hnew, hof⟩
        · rw [hs] at hnone
          cases hnone
        · rw [hs] at hnew
          obtain rfl := Option.some.inj hnew
          obtain ⟨o, hmem, ho⟩ := registered id stream hold
          use o, hmem
          apply hof o ho
      · intro id o hmem
        rcases hkeeps id with ⟨hnone, -⟩ | ⟨stream, stream', -, hnew, -⟩
        · cases yielded id o hmem hnone
        · dsimp only
          rw [hnew]
          exact nofun
      · intro id o hmem
        rcases List.mem_append.mp hmem with hmem | hmem
        · apply reached id o hmem
        · obtain ⟨tx, htx, heq⟩ := Option.map_eq_some_iff.mp (Option.mem_toList.mp hmem)
          cases heq
          obtain ⟨stream, hs, hst⟩ := Option.bind_eq_some_iff.mp htx
          obtain ⟨o, hy, ho⟩ := registered _ stream hs
          rw [ho.1 tx hst]
          exact hy
  | bytesReceived id =>
      constructor
      · exact hid
      · exact registered
      · exact yielded
      · intro id' o hmem
        rcases List.mem_append.mp hmem with hmem | hmem
        · apply reached id' o hmem
        · obtain ⟨rx, hrx, heq⟩ := Option.map_eq_some_iff.mp (Option.mem_toList.mp hmem)
          cases heq
          obtain ⟨stream, hs, hst⟩ := Option.bind_eq_some_iff.mp hrx
          obtain ⟨o, hy, ho⟩ := registered _ stream hs
          rw [ho.2 rx hst]
          exact hy

/-- The invariant holds of every state reached. -/
theorem Inv.of_run {tr : List StreamEvent} {s : StreamState}
    (h : machine.run StreamState.init tr = some s) :
  Inv s
  := by
  apply machine.run_invariant Inv.init _ h
  intro s e t hs ht
  apply hs.step (step_of_machine ht)

/-- Ids that are yielded stay so. -/
theorem yielded_of_run {tr : List StreamEvent} {s t : StreamState}
    (h : machine.run s tr = some t) :
  ∀ p, p ∈ s.yielded → p ∈ t.yielded
  := by
  intro p hp
  apply machine.run_invariant (P := fun t => p ∈ t.yielded) hp _ h
  intro t e u ht hu
  cases step_of_machine hu with
  | insert => exact List.mem_append_left _ ht
  | _ => exact ht

/-- While the QUIC ids of the streams yielded are distinct, ids denote, and reach, what they
were yielded for. -/
theorem Inv.denotes {s : StreamState} (h : Inv s) (hd : Distinct s) :
  Denotes s ∧ Reaches s
  := by
  have hsame : ∀ id origin origin', (id, origin) ∈ s.yielded → (id, origin') ∈ s.yielded →
      origin = origin' := by
    intro id origin origin' ho ho'
    apply hd id id origin origin' ho ho'
    have hq := (h.id id origin ho).symm.trans (h.id id origin' ho')
    exact StreamId.mk.inj hq
  constructor
  · intro id origin hmem
    obtain ⟨stream, hs⟩ := Option.ne_none_iff_exists'.mp (h.yielded id origin hmem)
    obtain ⟨origin', hmem', hof⟩ := h.registered id stream hs
    obtain rfl := hsame id origin origin' hmem hmem'
    use stream
  · intro id origin origin' hmem hmem'
    apply hsame id origin origin' (h.reached id origin hmem) hmem'

/-- Every stream yielded along a trace was registered under an id that was not registered
before. -/
def Fresh (tr : List StreamEvent) : Prop :=
  ∀ tr₁ tr₂ method session quicId s, tr = tr₁ ++ .method method session (.ok quicId) :: tr₂ →
    machine.run init tr₁ = some s → s.sessions session = true → s.streams ⟨quicId⟩ = none

/-- Streams registered under fresh ids have distinct QUIC ids. -/
theorem distinct_of_fresh {tr : List StreamEvent} {s : StreamState}
    (h : machine.run StreamState.init tr = some s) (hf : Fresh tr) :
  Distinct s
  := by
  revert hf
  apply machine.run_induction (P := fun tr s => Fresh tr → Distinct s) _ _ tr s h
  · intro _ id id' origin origin' hmem
    cases hmem
  · intro tr s e t hs ih ht hf
    have hd : Distinct s := by
      apply ih
      rintro tr₁ tr₂ method session quicId u rfl
      apply hf tr₁ (tr₂ ++ [e]) method session quicId u
      simp
    cases step_of_machine ht with
    | insert method origin stream hsession hfresh hof =>
        have hnone : s.streams ⟨origin.quicId⟩ = none := hf tr [] _ _ _ s rfl hs hsession
        have hinv := Inv.of_run hs
        have hnew : ∀ id o, (id, o) ∈ s.yielded → o.quicId ≠ origin.quicId := by
          intro id o hmem hq
          apply hinv.yielded id o hmem
          rw [hinv.id id o hmem, hq, hnone]
        intro id id' o o' hmem hmem' hq
        rcases List.mem_append.mp hmem with hmem | hmem <;>
          rcases List.mem_append.mp hmem' with hmem' | hmem'
        · apply hd id id' o o' hmem hmem' hq
        · cases List.mem_singleton.mp hmem'
          cases hnew id o hmem hq
        · cases List.mem_singleton.mp hmem
          cases hnew id' o' hmem' hq.symm
        · cases List.mem_singleton.mp hmem
          cases List.mem_singleton.mp hmem'
          rfl
    | _ => exact hd

/-- When stream ids do not alias.  Along a run, every stream is registered under a fresh id,
and in every state on the way each id yielded denotes, and when used reaches, the stream it
was yielded for, exactly when no two of the streams yielded have the same QUIC id. -/
theorem fresh_iff_distinct {tr : List StreamEvent} {s : StreamState}
    (h : machine.run StreamState.init tr = some s) :
  (Fresh tr ∧ ∀ tr₁ tr₂ u, tr = tr₁ ++ tr₂ → machine.run StreamState.init tr₁ = some u →
    Denotes u ∧ Reaches u) ↔ Distinct s
  := by
  constructor
  · rintro ⟨hf, -⟩
    apply distinct_of_fresh h hf
  · intro hd
    have hbefore : ∀ tr₁ tr₂ u, tr = tr₁ ++ tr₂ → machine.run StreamState.init tr₁ = some u →
        ∀ p, p ∈ u.yielded → p ∈ s.yielded := by
      rintro tr₁ tr₂ u rfl hu
      rw [Machine.run_append, hu] at h
      apply yielded_of_run h
    constructor
    · rintro tr₁ tr₂ method session quicId u rfl hu hsession
      rw [Machine.run_append, hu] at h
      obtain ⟨v, hv, h⟩ := Machine.exists_of_run_cons _ h
      by_contra hsome
      obtain ⟨stream, hs⟩ := Option.ne_none_iff_exists'.mp hsome
      obtain ⟨o, hmem, -⟩ := (Inv.of_run hu).registered _ stream hs
      have hq : quicId = o.quicId := StreamId.mk.inj ((Inv.of_run hu).id _ o hmem)
      cases step_of_machine hv with
      | notFound _ _ _ hn =>
          rw [hn] at hsession
          cases hsession
      | insert _ origin _ _ hfresh _ =>
          have hnew := yielded_of_run h (⟨origin.quicId⟩, origin) (by simp)
          have hold := yielded_of_run h (⟨origin.quicId⟩, o) (List.mem_append_left _ hmem)
          obtain rfl := hd _ _ o origin hold hnew hq.symm
          apply hfresh
          apply List.mem_map_of_mem hmem
    · intro tr₁ tr₂ u htr hu
      have hsub := hbefore tr₁ tr₂ u htr hu
      apply (Inv.of_run hu).denotes
      intro id id' o o' hmem hmem'
      apply hd id id' o o' (hsub _ hmem) (hsub _ hmem')

/-- Two sessions each create their first stream, with the QUIC id `4`.  The id yielded for
the first of them reaches the second. -/
theorem reaches_other_session :
  ∃ tr s,
    tr = [.established ⟨1⟩, .established ⟨2⟩, .method .biStreamCreated ⟨1⟩ (.ok 4),
      .method .biStreamCreated ⟨2⟩ (.ok 4), .sendBytes ⟨⟨4⟩, [7], false⟩ .ok] ∧
    machine.run StreamState.init tr = some s ∧ ¬ Fresh tr ∧ (⟨4⟩, ⟨⟨1⟩, 4⟩) ∈ s.yielded ∧
    s.reached = [(⟨4⟩, ⟨⟨2⟩, 4⟩)] ∧ ¬ (Denotes s ∧ Reaches s)
  := by
  refine ⟨_, _, rfl, rfl, ?_, by decide, rfl, ?_⟩
  · intro h
    have hnone := h [.established ⟨1⟩, .established ⟨2⟩, .method .biStreamCreated ⟨1⟩ (.ok 4)]
      [.sendBytes ⟨⟨4⟩, [7], false⟩ .ok] _ _ _ _ rfl rfl rfl
    cases hnone
  · rintro ⟨-, h⟩
    have heq := h ⟨4⟩ ⟨⟨2⟩, 4⟩ ⟨⟨1⟩, 4⟩ (by decide) (by decide)
    cases heq

/-- Two sessions create streams with different QUIC ids. -/
theorem fresh_two_sessions :
  Fresh [.established ⟨1⟩, .established ⟨2⟩, .method .biStreamCreated ⟨1⟩ (.ok 4),
    .method .biStreamCreated ⟨2⟩ (.ok 8)]
  := by
  apply ((fresh_iff_distinct (s := _) rfl).mpr _).1
  intro id id' origin origin' hmem hmem' hq
  have hmem : (id, origin) ∈ [(⟨4⟩, ⟨⟨1⟩, 4⟩), (⟨8⟩, ⟨⟨2⟩, 8⟩)] := hmem
  have hmem' : (id', origin') ∈ [(⟨4⟩, ⟨⟨1⟩, 4⟩), (⟨8⟩, ⟨⟨2⟩, 8⟩)] := hmem'
  simp only [List.mem_cons, List.not_mem_nil, or_false, Prod.mk.injEq] at hmem hmem'
  rcases hmem with ⟨-, rfl⟩ | ⟨-, rfl⟩ <;> rcases hmem' with ⟨-, rfl⟩ | ⟨-, rfl⟩ <;>
    first | rfl | cases hq

end StreamState

end WebTransport

end Cyclers
