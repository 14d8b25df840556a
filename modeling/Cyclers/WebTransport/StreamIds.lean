import Cyclers.WebTransport.BytesReceived
import Cyclers.WebTransport.Handlers
import Cyclers.WebTransport.Source

/-!
# Stream ids

A stream is registered, under its QUIC id, before it is yielded, and nothing is removed from the
map.  A stream of another session that is registered under the same id takes the place of the one
that is there, but QUIC ids tell who opened a stream and in which directions data flow in it, so
that it is a stream of the same kind.  An id that has been yielded can therefore be used for all
that the streams of its method can be used for.
-/

open Async

namespace Cyclers

namespace WebTransport

universe u

variable {F : Type u} {kind : ℕ → StreamMethod}

/-- The method that yields a stream. -/
def Stream.method : Stream → StreamMethod
  | .outgoingUni _ => .uniStreamCreated
  | .outgoingBi _ _ => .biStreamCreated
  | .incomingUni _ => .uniStreamReceived
  | .incomingBi _ _ => .biStreamReceived

@[simp]
theorem Stream.method_setTx (stream : Stream) (tx : SendStream) :
  (stream.setTx tx).method = stream.method
  := by
  cases stream <;> rfl

/-- A stream is writable unless it was received and is unidirectional. -/
theorem Stream.tx_eq_none_iff {stream : Stream} :
  stream.tx = none ↔ stream.method = .uniStreamReceived
  := by
  cases stream <;> simp [Stream.tx, Stream.method]

/-- A stream is readable unless it was created and is unidirectional. -/
theorem Stream.rx_eq_none_iff {stream : Stream} :
  stream.rx = none ↔ stream.method = .uniStreamCreated
  := by
  cases stream <;> simp [Stream.rx, Stream.method]

/-- A method registers the stream that it yields as one of its own. -/
theorem StreamMethod.poll_method (method : StreamMethod) (origin : Origin) (streams : StreamMap) :
  ∃ stream : Stream, stream.method = method ∧
    (method.poll true (.ok origin) streams).1 =
      Function.update streams ⟨origin.quicId⟩ (some stream)
  := by
  cases method with
  | uniStreamCreated => exact ⟨.outgoingUni _, rfl, rfl⟩
  | biStreamCreated => exact ⟨.outgoingBi _ _, rfl, rfl⟩
  | uniStreamReceived => exact ⟨.incomingUni _, rfl, rfl⟩
  | biStreamReceived => exact ⟨.incomingBi _ _, rfl, rfl⟩

/-- A stream of the source has opened, and is to yield, streams of its method only, and the one
that it is to yield is registered. -/
structure SourceStream.Publishes (kind : ℕ → StreamMethod) (streams : StreamMap)
    (r : SourceStream) : Prop where
  opened : ∀ quicId method sessionId, r.task = .insertStream quicId →
    r.method = .streams method sessionId → kind quicId = method
  item : ∀ id method sessionId, r.task = .item (.stream (.ok id)) →
    r.method = .streams method sessionId → kind id.quicId = method ∧ streams id ≠ none

/-- The items of the other tasks are of no matter to the streams. -/
theorem SourceStream.Publishes.of_task {streams : StreamMap} {r : SourceStream}
    (hopened : ∀ quicId, r.task ≠ .insertStream quicId)
    (hitem : ∀ id, r.task ≠ .item (.stream (.ok id))) :
  r.Publishes kind streams
  := by
  constructor
  · intro quicId _ _ ht
    cases hopened quicId ht
  · intro id _ _ ht
    cases hitem id ht

theorem SourceStream.Publishes.mono {streams streams' : StreamMap} {r : SourceStream}
    (h : r.Publishes kind streams) (hle : ∀ id, streams id ≠ none → streams' id ≠ none) :
  r.Publishes kind streams'
  := by
  refine ⟨h.opened, ?_⟩
  intro id method sessionId ht hm
  obtain ⟨hk, hs⟩ := h.item id method sessionId ht hm
  exact ⟨hk, hle id hs⟩

/-- What is unfolded for a command whose write ends like this. -/
def WriteOutcome.result (finished : Bool) : WriteOutcome → Option (Except BoxError Unit)
  | .ok => if finished then none else some (.ok ())
  | .error _ err => some (.error err)

/-- What is unfolded for a command to send bytes, by the method of the stream. -/
theorem sendBytesUnfold_of_method {streams : StreamMap} {command : SendBytesCommand}
    {stream : Stream} {method : StreamMethod} (hs : streams command.streamId = some stream)
    (hm : stream.method = method) (w : WriteOutcome) :
  (sendBytesUnfold streams command w).2 =
    if method = .uniStreamReceived then some (.error "stream is not a writable stream")
    else w.result command.finished
  := by
  rw [sendBytesUnfold_eq, lookup, hs, ← hm]
  cases htx : stream.tx with
  | none =>
      rw [if_pos (Stream.tx_eq_none_iff.mp htx)]
      simp [htx]
  | some tx =>
      have hne : stream.method ≠ .uniStreamReceived := by
        rw [Ne, ← Stream.tx_eq_none_iff, htx]
        exact Option.some_ne_none tx
      rw [if_neg hne]
      cases w <;> simp [htx, WriteOutcome.result]

/-- The transport opens or accepts a stream. -/
def SourceEvent.opens : SourceEvent F → Bool
  | .transport _ (.ok _) => true
  | _ => false

namespace SourceState

/-- The transport gives the streams of a method ids of its kind. -/
def KindOf (kind : ℕ → StreamMethod) (s : SourceState F) : SourceEvent F → Prop
  | .transport j (.ok quicId) => ∀ method sessionId,
      (s.streams j).method = .streams method sessionId → kind quicId = method
  | _ => True

/-- What is registered under an id has the kind of the id, what has been yielded under an id is
registered and has the kind of its method. -/
structure Published (kind : ℕ → StreamMethod) (s : SourceState F) : Prop where
  entry : ∀ id stream, s.streamMap id = some stream → stream.method = kind id.quicId
  stream : ∀ j, (s.streams j).Publishes kind s.streamMap
  yielded : ∀ id method, (id, method) ∈ s.streamsYielded →
    kind id.quicId = method ∧ s.streamMap id ≠ none

theorem Published.init :
  Published kind (init F)
  := by
  refine ⟨nofun, ?_, nofun⟩
  intro j
  apply SourceStream.Publishes.of_task <;> exact nofun

/-- A stream of the source goes on. -/
theorem Published.set {s : SourceState F} (h : Published kind s) (j : ℕ) {r : SourceStream}
    (hr : r.Publishes kind s.streamMap) :
  Published kind (s.set j r)
  := by
  refine ⟨h.entry, ?_, h.yielded⟩
  intro j'
  by_cases hj : j' = j
  · subst hj
    rw [set_streams_self]
    exact hr
  · rw [set_streams_of_ne s hj]
    apply h.stream j'

/-- A stream of the source goes on to something that does not yield a stream. -/
theorem Published.of_task {s : SourceState F} (h : Published kind s) (j : ℕ) {r : SourceStream}
    (hopened : ∀ quicId, r.task ≠ .insertStream quicId)
    (hitem : ∀ id, r.task ≠ .item (.stream (.ok id))) :
  Published kind (s.set j r)
  := by
  apply h.set j
  apply SourceStream.Publishes.of_task hopened hitem

/-- The map changes, and keeps what is registered. -/
theorem Published.streamMap {s : SourceState F} (h : Published kind s) {streams : StreamMap}
    (hentry : ∀ id stream, streams id = some stream → stream.method = kind id.quicId)
    (hle : ∀ id, s.streamMap id ≠ none → streams id ≠ none) :
  Published kind { s with streamMap := streams }
  := by
  refine ⟨hentry, fun j => (h.stream j).mono hle, ?_⟩
  intro id method hmem
  obtain ⟨hk, hs⟩ := h.yielded id method hmem
  exact ⟨hk, hle id hs⟩

/-- A stream is registered under an id of its kind. -/
theorem Published.insert {s : SourceState F} (h : Published kind s) {method : StreamMethod}
    {origin : Origin} (hk : kind origin.quicId = method) :
  Published kind { s with streamMap := (method.poll true (.ok origin) s.streamMap).1 }
  := by
  obtain ⟨stream, hmethod, hpoll⟩ := method.poll_method origin s.streamMap
  rw [hpoll]
  apply h.streamMap
  · intro id stream' hget
    by_cases hid : id = ⟨origin.quicId⟩
    · subst hid
      rw [Function.update_self] at hget
      cases hget
      rw [hmethod, hk]
    · rw [Function.update_of_ne hid] at hget
      apply h.entry id stream' hget
  · intro id hs
    by_cases hid : id = ⟨origin.quicId⟩
    · subst hid
      rw [Function.update_self]
      exact Option.some_ne_none _
    · rw [Function.update_of_ne hid]
      exact hs

/-- A command to send bytes keeps what is registered. -/
theorem Published.sendBytes {s : SourceState F} (h : Published kind s)
    (command : SendBytesCommand) (w : WriteOutcome) :
  Published kind { s with streamMap := (sendBytesUnfold s.streamMap command w).1 }
  := by
  apply h.streamMap
  · intro id stream hget
    rcases StreamState.sendBytesUnfold_map s.streamMap command w id with
      heq | ⟨stream', tx, tx', hs, -, -, hnew⟩
    · rw [heq] at hget
      apply h.entry id stream hget
    · rw [hnew] at hget
      cases hget
      rw [Stream.method_setTx, h.entry id stream' hs]
  · intro id hs
    rcases StreamState.sendBytesUnfold_map s.streamMap command w id with
      heq | ⟨stream', tx, tx', -, -, -, hnew⟩
    · rw [heq]
      exact hs
    · rw [hnew]
      exact Option.some_ne_none _

/-- An event keeps what is published. -/
theorem Published.step {s t : SourceState F} {e : SourceEvent F} (h : Published kind s)
    (hk : s.KindOf kind e) (hs : Step s e t) :
  Published kind t
  := by
  have hopened : ∀ (j quicId : ℕ) (request : Option (ℕ × UInt32)),
      s.KindOf kind (.transport j (.ok quicId)) → s.task j = some (.transport request) →
      SourceStream.Publishes kind s.streamMap
        { s.streams j with task := .insertStream quicId } := by
    intro j quicId request hk ht
    refine ⟨?_, nofun⟩
    rintro quicId' method sessionId ⟨⟩ hm
    exact hk method sessionId hm
  cases hs with
  | accepted j quicId ht => apply h.set j (hopened j quicId none hk ht)
  | created j i quicId sendOrder ht =>
      have heffects : Published kind { s with effects := s.effects ++ [(j, i)] } :=
        ⟨h.entry, h.stream, h.yielded⟩
      apply heffects.set j (hopened j quicId (some (i, sendOrder)) hk ht)
  | insertStream j quicId method sessionId ht hm =>
      have hinsert : Published kind { s with
          streamMap := (method.poll true (.ok ⟨sessionId, quicId⟩) s.streamMap).1 } :=
        h.insert ((h.stream j).opened quicId method sessionId (task_eq_some.mp ht).2 hm)
      apply hinsert.set j
      refine ⟨nofun, ?_⟩
      rintro id method' sessionId' ⟨⟩ hm'
      obtain ⟨stream, -, hpoll⟩ := method.poll_method ⟨sessionId, quicId⟩ s.streamMap
      refine ⟨(h.stream j).opened quicId method' sessionId' (task_eq_some.mp ht).2 hm', ?_⟩
      dsimp only
      rw [hpoll, Function.update_self]
      exact Option.some_ne_none _
  | yieldStream j id method sessionId ht hm =>
      have hyielded : Published kind
          { s with streamsYielded := s.streamsYielded ++ [(id, method)] } := by
        refine ⟨h.entry, h.stream, ?_⟩
        intro id' method' hmem
        rcases List.mem_append.mp hmem with hmem | hmem
        · apply h.yielded id' method' hmem
        · cases List.mem_singleton.mp hmem
          apply (h.stream j).item id method sessionId (task_eq_some.mp ht).2 hm
      apply hyielded.of_task j <;> exact nofun
  | obtain method =>
      have hcount : Published kind { s with count := s.count + 1 } :=
        ⟨h.entry, h.stream, h.yielded⟩
      apply hcount.of_task <;> exact nofun
  | skip j client command ht hget =>
      apply h.of_task j
      · rw [(task_eq_some.mp ht).2]
        exact nofun
      · rw [(task_eq_some.mp ht).2]
        exact nofun
  | zip j client i url ht =>
      have heffects : Published kind { s with effects := s.effects ++ [(j, i)] } :=
        ⟨h.entry, h.stream, h.yielded⟩
      apply heffects.of_task j <;> exact nofun
  | connected j client url stableId ht =>
      have hconnected : Published kind { s with connected := s.connected + 1 } :=
        ⟨h.entry, h.stream, h.yielded⟩
      apply hconnected.of_task j <;> exact nofun
  | insertSession j session url ht =>
      have hsessions : Published kind { s with
          sessionMap := Function.update s.sessionMap session.id (some session) } :=
        ⟨h.entry, h.stream, h.yielded⟩
      apply hsessions.of_task j <;> exact nofun
  | panicked j i quicId sendOrder ht =>
      have heffects : Published kind { s with effects := s.effects ++ [(j, i)] } :=
        ⟨h.entry, h.stream, h.yielded⟩
      apply heffects.of_task j <;> exact nofun
  | yieldSession j session url ht =>
      have hyielded : Published kind { s with
          sessionsYielded := s.sessionsYielded ++ [(session.id, session)] } :=
        ⟨h.entry, h.stream, h.yielded⟩
      apply hyielded.of_task j <;> exact nofun
  | sendBytes command w sendEnded failed hget =>
      obtain ⟨hentry, hstream, hyielded⟩ := h.sendBytes command w
      exact ⟨hentry, hstream, hyielded⟩
  | sink command => exact ⟨h.entry, h.stream, h.yielded⟩
  | client client => exact ⟨h.entry, h.stream, h.yielded⟩
  | start hn => exact ⟨h.entry, h.stream, h.yielded⟩
  | terminate terminated closing failed => exact ⟨h.entry, h.stream, h.yielded⟩
  | close command hc => exact ⟨h.entry, h.stream, h.yielded⟩
  | sendBytesSkip w => exact ⟨h.entry, h.stream, h.yielded⟩
  | _ => apply h.of_task <;> exact nofun

/-- What is published in every state reached. -/
theorem Published.of_run {s : SourceState F} {tr : List (SourceEvent F)}
    (hr : (machine F).run (SourceState.init F) tr = some s)
    (hk : (machine F).Along (KindOf kind) (SourceState.init F) tr) :
  Published kind s
  := by
  apply (machine F).run_invariant_along Published.init _ hr hk
  intro s e t hs he ht
  apply hs.step he (step_of_machine ht)

/-- An id that has been yielded is registered as a stream of the method that yielded it.  Sending
bytes to it ends as the write ends, unless the stream is received and unidirectional, when it is
not writable.  Receiving bytes from it finds the stream, which is not readable exactly when it is
created and unidirectional. -/
theorem streamIds_usable {s : SourceState F} {tr : List (SourceEvent F)}
    (hr : (machine F).run (SourceState.init F) tr = some s)
    (hk : (machine F).Along (KindOf kind) (SourceState.init F) tr) {id : StreamId}
    {method : StreamMethod} (hmem : (id, method) ∈ s.streamsYielded) :
  (∃ stream, s.streamMap id = some stream ∧ stream.method = method) ∧
    (∀ command w, command.streamId = id →
      (sendBytesUnfold s.streamMap command w).2 =
        if method = .uniStreamReceived then some (.error "stream is not a writable stream")
        else w.result command.finished) ∧
    ∀ target read,
      ((∃ inner, bytesReceivedUnfold target s.streamMap id read =
        some (.error ⟨.nonReadableStream, inner⟩)) ↔ method = .uniStreamCreated) ∧
      ¬ ∃ inner, bytesReceivedUnfold target s.streamMap id read =
        some (.error ⟨.streamNotFound, inner⟩)
  := by
  have hpublished : Published kind s := Published.of_run hr hk
  obtain ⟨hkind, hs⟩ := hpublished.yielded id method hmem
  obtain ⟨stream, hget⟩ := Option.ne_none_iff_exists'.mp hs
  have hmethod : stream.method = method := by
    rw [hpublished.entry id stream hget, hkind]
  refine ⟨⟨stream, hget, hmethod⟩, ?_, ?_⟩
  · rintro command w rfl
    apply sendBytesUnfold_of_method hget hmethod
  · intro target read
    rw [streamNotFound_iff, nonReadableStream_iff, hget]
    refine ⟨?_, Option.some_ne_none stream⟩
    rw [← hmethod, ← Stream.rx_eq_none_iff]
    simp

/-- Events by which the transport gives no stream are of no matter to the ids. -/
theorem along_kindOf {tr : List (SourceEvent F)} (h : ∀ e ∈ tr, e.opens = false)
    (s : SourceState F) :
  (machine F).Along (KindOf kind) s tr
  := by
  apply (machine F).along_of_forall
  intro e he s
  cases e with
  | transport j result =>
      cases result with
      | ok quicId => cases h _ he
      | error err => trivial
  | _ => trivial

/-- The kinds of streams by the last two bits of their QUIC ids, for a client. -/
def quicKind (quicId : ℕ) : StreamMethod :=
  match quicId % 4 with
  | 0 => .biStreamCreated
  | 1 => .biStreamReceived
  | 2 => .uniStreamCreated
  | _ => .uniStreamReceived

/-- A stream is created and another one received, with ids of their kinds. -/
theorem kindOf_two :
  (machine Unit).Along (KindOf quicKind) (SourceState.init Unit)
    ([.obtain .sessionReady, .client none, .sink (.establishSession ⟨"a"⟩), .pollClient 0,
      .pollCommand 0, .zip 0, .connected 0 (.ok 7), .insertSession 0, .yield 0,
      .obtain (.streams .biStreamCreated ⟨7⟩), .obtain (.streams .uniStreamReceived ⟨7⟩),
      .sink (.createBiStream ⟨⟨7⟩, 0⟩), .pollCommand 1, .lookup 1] ++ (.transport 1 (.ok 0) ::
        ([.insertStream 1, .yield 1, .pollReceived 2, .lookup 2] ++
          (.transport 2 (.ok 3) :: [.insertStream 2, .yield 2]))))
  := by
  apply (machine Unit).along_append.mpr
  refine ⟨along_kindOf (by decide) _, ?_⟩
  rintro s ⟨⟩
  constructor
  · rintro method sessionId ⟨⟩
    rfl
  rintro s ⟨⟩
  apply (machine Unit).along_append.mpr
  refine ⟨along_kindOf (by decide) _, ?_⟩
  rintro s ⟨⟩
  constructor
  · rintro method sessionId ⟨⟩
    rfl
  rintro s ⟨⟩
  apply along_kindOf (by decide)

/-- The stream that is received is not writable. -/
theorem streamIds_usable_two :
  ∃ s : SourceState Unit,
    (machine Unit).run (SourceState.init Unit)
      ([.obtain .sessionReady, .client none, .sink (.establishSession ⟨"a"⟩), .pollClient 0,
        .pollCommand 0, .zip 0, .connected 0 (.ok 7), .insertSession 0, .yield 0,
        .obtain (.streams .biStreamCreated ⟨7⟩), .obtain (.streams .uniStreamReceived ⟨7⟩),
        .sink (.createBiStream ⟨⟨7⟩, 0⟩), .pollCommand 1, .lookup 1] ++ (.transport 1 (.ok 0) ::
          ([.insertStream 1, .yield 1, .pollReceived 2, .lookup 2] ++
            (.transport 2 (.ok 3) :: [.insertStream 2, .yield 2])))) = some s ∧
    s.streamsYielded = [(⟨0⟩, .biStreamCreated), (⟨3⟩, .uniStreamReceived)] ∧
    (sendBytesUnfold s.streamMap ⟨⟨3⟩, [1], false⟩ .ok).2 =
      some (.error "stream is not a writable stream")
  := by
  refine ⟨_, rfl, rfl, ?_⟩
  apply (@streamIds_usable Unit quicKind _ _ (by rfl) kindOf_two ⟨3⟩ .uniStreamReceived
    (by decide)).2.1 ⟨⟨3⟩, [1], false⟩ .ok rfl

end SourceState

end WebTransport

end Cyclers
