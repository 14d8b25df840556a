import Cyclers.Async.Unfold
import Cyclers.WebTransport.BytesReceived
import Cyclers.WebTransport.StreamMap
import Mathlib.Data.List.TakeWhile
import Mathlib.Data.Set.List

/-!
# Receiving streams

The streams of received streams and of received bytes are unfolded from `()`: a poll does not know
what came of the one before.  Each accepts a stream, or reads, anew, and a failure of that is an
item like any other.  The only end is the end of what is read.
-/

open Async

namespace Cyclers

namespace WebTransport

/-- A stream of the source that receives from the peer. -/
inductive Receiver where
  | uniStreamReceived : SessionId → Receiver
  | biStreamReceived : SessionId → Receiver
  | bytesReceived : Target → StreamId → Receiver
  deriving DecidableEq

/-- What a poll meets: the sessions and the streams that are registered by then, and what comes of
accepting a stream and of reading. -/
structure Turn where
  sessions : SessionId → Bool
  streams : StreamMap
  accept : Except BoxError ℕ
  read : ReadOutcome

/-- An item of a receiving stream. -/
inductive Received where
  | stream : Except StreamError StreamId → Received
  | bytes : Except ReceiveBytesError (List UInt8) → Received
  deriving DecidableEq

/-- Look a session up, and accept a stream of it. -/
def acceptUnfold (method : StreamMethod) (session : SessionId) (turn : Turn) :
    Option (Except StreamError StreamId) :=
  some (method.poll (turn.sessions session)
    (turn.accept.map fun quicId => ⟨session, quicId⟩) turn.streams).2

/-- What a poll of a receiving stream gives: an item, or the end. -/
def Receiver.poll : Receiver → Turn → Option Received
  | .uniStreamReceived session, turn =>
      (acceptUnfold .uniStreamReceived session turn).map .stream
  | .biStreamReceived session, turn =>
      (acceptUnfold .biStreamReceived session turn).map .stream
  | .bytesReceived target id, turn =>
      (bytesReceivedUnfold target turn.streams id turn.read).map .bytes

/-- What a receiving stream has yielded after some polls, and whether it has ended. -/
def Receiver.received (r : Receiver) : List Turn → List Received × Option Unit :=
  unfold (fun _ turn => (r.poll turn).map fun item => (item, ())) ()

/-- Why receiving fails. -/
inductive FailureKind where
  | stream : StreamErrorKind → FailureKind
  | bytes : ReceiveBytesErrorKind → FailureKind
  deriving DecidableEq

/-- What comes of receiving from the peer. -/
inductive Outcome where
  | success
  | failure : FailureKind → Outcome
  | finished
  deriving DecidableEq

/-- What comes of accepting a stream of a session. -/
def Turn.accepts (turn : Turn) (session : SessionId) : Outcome :=
  match turn.sessions session, turn.accept with
  | false, _ => .failure (.stream .sessionNotFound)
  | true, .error _ => .failure (.stream .invalidTransportState)
  | true, .ok _ => .success

/-- What comes of reading from a stream. -/
def Turn.reads (turn : Turn) (id : StreamId) : Outcome :=
  match turn.streams id, turn.streams.rx id, turn.read with
  | none, _, _ => .failure (.bytes .streamNotFound)
  | some _, none, _ => .failure (.bytes .nonReadableStream)
  | some _, some _, .error _ => .failure (.bytes .read)
  | some _, some _, .data _ => .success
  | some _, some _, .finished => .finished

/-- What comes of the operation that a poll of a receiving stream makes. -/
def Receiver.outcome : Receiver → Turn → Outcome
  | .uniStreamReceived session, turn => turn.accepts session
  | .biStreamReceived session, turn => turn.accepts session
  | .bytesReceived _ id, turn => turn.reads id

/-- What an item tells of the operation. -/
def Received.outcome : Received → Outcome
  | .stream (.ok _) => .success
  | .stream (.error err) => .failure (.stream err.kind)
  | .bytes (.ok _) => .success
  | .bytes (.error err) => .failure (.bytes err.kind)

/-! ### One poll -/

/-- An item is never the end. -/
theorem Received.outcome_ne_finished (item : Received) :
  item.outcome ≠ .finished
  := by
  cases item with
  | stream result => cases result <;> exact nofun
  | bytes result => cases result <;> exact nofun

/-- What a poll gives tells what came of accepting a stream. -/
theorem acceptUnfold_outcome (method : StreamMethod) (session : SessionId) (turn : Turn) :
  ((acceptUnfold method session turn).map Received.stream).elim .finished Received.outcome =
    turn.accepts session
  := by
  rw [Turn.accepts, acceptUnfold]
  cases turn.sessions session with
  | false => cases method <;> rfl
  | true =>
      cases turn.accept with
      | error err => cases method <;> rfl
      | ok quicId => cases method <;> rfl

/-- What a poll gives tells what came of reading. -/
theorem bytesReceivedUnfold_outcome (target : Target) (id : StreamId) (turn : Turn) :
  ((bytesReceivedUnfold target turn.streams id turn.read).map Received.bytes).elim .finished
      Received.outcome =
    turn.reads id
  := by
  unfold bytesReceivedUnfold
  rw [Turn.reads]
  cases hs : turn.streams id with
  | none => rfl
  | some stream =>
      cases hrx : stream.rx with
      | none =>
          simp only [StreamMap.rx, hs, Option.bind_some, hrx]
          rfl
      | some rx =>
          simp only [StreamMap.rx, hs, Option.bind_some, hrx]
          cases turn.read <;> rfl

/-- What a poll of a receiving stream gives tells what came of its operation. -/
theorem Receiver.poll_outcome (r : Receiver) (turn : Turn) :
  (r.poll turn).elim .finished Received.outcome = r.outcome turn
  := by
  cases r with
  | uniStreamReceived session => apply acceptUnfold_outcome
  | biStreamReceived session => apply acceptUnfold_outcome
  | bytesReceived target id => apply bytesReceivedUnfold_outcome

/-- A poll ends the stream exactly when there is nothing more to read. -/
theorem Receiver.poll_eq_none_iff {r : Receiver} {turn : Turn} :
  r.poll turn = none ↔ r.outcome turn = .finished
  := by
  have h := r.poll_outcome turn
  cases hp : r.poll turn with
  | none =>
      rw [hp] at h
      exact iff_of_true rfl h.symm
  | some item =>
      rw [hp] at h
      apply iff_of_false nofun
      rw [← h]
      apply item.outcome_ne_finished

/-- An item that a poll gives tells what came of the operation. -/
theorem Receiver.outcome_of_poll {r : Receiver} {turn : Turn} {item : Received}
    (h : r.poll turn = some item) :
  item.outcome = r.outcome turn
  := by
  rw [← r.poll_outcome turn, h]
  rfl

/-- Nothing ends a stream of received streams. -/
theorem Turn.accepts_ne_finished (turn : Turn) (session : SessionId) :
  turn.accepts session ≠ .finished
  := by
  rw [accepts]
  cases turn.sessions session with
  | false => exact nofun
  | true => cases turn.accept <;> exact nofun

/-- The stream of received bytes ends exactly when a readable stream has nothing more to read. -/
theorem bytesReceivedUnfold_eq_none_iff {target : Target} {streams : StreamMap} {id : StreamId}
    {read : ReadOutcome} :
  bytesReceivedUnfold target streams id read = none ↔ streams.rx id ≠ none ∧ read = .finished
  := by
  constructor
  · intro h
    unfold bytesReceivedUnfold at h
    split at h
    · cases h
    · rename_i stream hs
      split at h
      · cases h
      · rename_i rx hrx
        rw [StreamMap.rx, hs, Option.bind_some, hrx]
        split at h
        · cases h
        · exact ⟨Option.some_ne_none rx, rfl⟩
        · cases h
  · rintro ⟨hrx, rfl⟩
    apply bytesReceivedUnfold_finished hrx

/-- There is nothing more to read only from a stream that is readable. -/
theorem Receiver.outcome_eq_finished_iff {r : Receiver} {turn : Turn} :
  r.outcome turn = .finished ↔ ∃ target id, r = .bytesReceived target id ∧
    turn.streams.rx id ≠ none ∧ turn.read = .finished
  := by
  cases r with
  | uniStreamReceived session =>
      apply iff_of_false (turn.accepts_ne_finished session)
      rintro ⟨target, id, hr, -⟩
      cases hr
  | biStreamReceived session =>
      apply iff_of_false (turn.accepts_ne_finished session)
      rintro ⟨target, id, hr, -⟩
      cases hr
  | bytesReceived target id =>
      rw [← poll_eq_none_iff, poll, Option.map_eq_none_iff, bytesReceivedUnfold_eq_none_iff]
      constructor
      · intro h
        exact ⟨target, id, rfl, h⟩
      · rintro ⟨target', id', hr, h⟩
        obtain ⟨rfl, rfl⟩ := Receiver.bytesReceived.inj hr
        exact h

/-! ### All polls -/

/-- The polls of a receiving stream, until the one that ends it, give one item each, which tells
what came of the operation; and the stream ends when there is nothing more to read. -/
theorem Receiver.received_outcome (r : Receiver) (turns : List Turn) :
  (r.received turns).1.map Received.outcome =
      (turns.takeWhile fun turn => !(r.outcome turn = .finished)).map r.outcome ∧
    ((r.received turns).2 = none ↔ ∃ turn ∈ turns, r.outcome turn = .finished)
  := by
  rw [received]
  have h := @map_unfold _ _ _ _ (fun _ turn => (r.poll turn).map fun item => (item, ()))
    Received.outcome r.outcome (fun turn => decide (r.outcome turn = .finished)) ?_ ?_ () turns
  · simpa only [decide_eq_true_eq] using h
  · intro s turn
    rw [Option.map_eq_none_iff, decide_eq_true_eq]
    apply r.poll_eq_none_iff
  · intro s turn item t h
    obtain ⟨item', hp, hi⟩ := Option.map_eq_some_iff.mp h
    obtain ⟨rfl, -⟩ := Prod.mk.inj hi
    apply outcome_of_poll hp

/-- Along polls that do not end the stream, there is one item for each. -/
theorem Receiver.received_of_ne_finished {r : Receiver} {turns : List Turn}
    (h : ∀ turn ∈ turns, r.outcome turn ≠ .finished) :
  (r.received turns).1.map Received.outcome = turns.map r.outcome ∧
    (r.received turns).2 = some ()
  := by
  obtain ⟨hitems, hend⟩ := r.received_outcome turns
  rw [List.takeWhile_eq_self_iff.mpr (by simpa using h)] at hitems
  refine ⟨hitems, ?_⟩
  cases he : (r.received turns).2 with
  | some u => rfl
  | none =>
      obtain ⟨turn, hturn, hf⟩ := hend.mp he
      cases h turn hturn hf

/-- The stream of received bytes, as a receiving stream. -/
theorem Receiver.received_bytesReceived (target : Target) (id : StreamId) (turns : List Turn) :
  (Receiver.bytesReceived target id).received turns =
    ((WebTransport.bytesReceived target id (turns.map fun turn => (turn.streams, turn.read))).1.map
        .bytes,
      if (WebTransport.bytesReceived target id
        (turns.map fun turn => (turn.streams, turn.read))).2 then none else some ())
  := by
  rw [received]
  induction turns with
  | nil => rfl
  | cons turn turns ih =>
      rw [List.map_cons, WebTransport.bytesReceived]
      cases hread : bytesReceivedUnfold target turn.streams id turn.read with
      | none =>
          rw [unfold_cons_of_none (by rw [poll, hread]; rfl)]
          rfl
      | some item =>
          rw [unfold_cons_of_some (by rw [poll, hread]; rfl), ih]
          rfl

/-- How a receiving stream goes on.  Each poll gives one item, which tells what came of accepting or
reading, until a read of a readable stream tells that there is nothing more; that is the only end,
and a stream of received streams has none.  So when some operations succeed and all later ones fail,
the stream does not end: each poll from the first failure on gives one more error. -/
theorem Receiver.goes_on (r : Receiver) (turns : List Turn) :
  (r.received turns).1.map Received.outcome =
      (turns.takeWhile fun turn => !(r.outcome turn = .finished)).map r.outcome ∧
    ((r.received turns).2 = none ↔ ∃ turn ∈ turns, ∃ target id, r = .bytesReceived target id ∧
      turn.streams.rx id ≠ none ∧ turn.read = .finished) ∧
    ∀ ok failing, turns = ok ++ failing → (∀ turn ∈ ok, r.outcome turn = .success) →
      (∀ turn ∈ failing, ∃ kind, r.outcome turn = .failure kind) →
      ∃ errors : List FailureKind, errors.length = failing.length ∧
        (r.received turns).1.map Received.outcome =
          List.replicate ok.length .success ++ errors.map .failure ∧
        (r.received turns).2 = some ()
  := by
  obtain ⟨hitems, hend⟩ := r.received_outcome turns
  refine ⟨hitems, ?_, ?_⟩
  · rw [hend]
    apply exists_congr
    intro turn
    rw [outcome_eq_finished_iff]
  · rintro ok failing rfl hok hfailing
    obtain ⟨errors, herrors⟩ : failing.map r.outcome ∈ Set.range (List.map Outcome.failure) := by
      rw [Set.range_list_map]
      intro outcome houtcome
      obtain ⟨turn, hturn, rfl⟩ := List.mem_map.mp houtcome
      obtain ⟨kind, hkind⟩ := hfailing turn hturn
      exact ⟨kind, hkind.symm⟩
    have hne : ∀ turn ∈ ok ++ failing, r.outcome turn ≠ .finished := by
      intro turn hturn
      rcases List.mem_append.mp hturn with hturn | hturn
      · rw [hok turn hturn]
        exact nofun
      · obtain ⟨kind, hkind⟩ := hfailing turn hturn
        rw [hkind]
        exact nofun
    obtain ⟨houtcomes, hsome⟩ := received_of_ne_finished hne
    refine ⟨errors, ?_, ?_, hsome⟩
    · simpa using congrArg List.length herrors
    · rw [houtcomes, List.map_append, herrors, List.map_congr_left hok, List.map_const']

/-- A stream of received streams whose session is not registered gives an error at each of two
polls, and so do a stream of received streams whose session fails after a stream is accepted, and a
stream of received bytes whose reads fail.  None of them ends. -/
theorem Receiver.received_twice :
  ∃ found lost : Turn,
    (Receiver.uniStreamReceived ⟨1⟩).received [lost, lost] =
      ([.stream (.error ⟨.sessionNotFound, "could not find session"⟩),
        .stream (.error ⟨.sessionNotFound, "could not find session"⟩)], some ()) ∧
    (Receiver.biStreamReceived ⟨0⟩).received [found, lost, lost] =
      ([.stream (.ok ⟨4⟩), .stream (.error ⟨.invalidTransportState, "closed"⟩),
        .stream (.error ⟨.invalidTransportState, "closed"⟩)], some ()) ∧
    (Receiver.bytesReceived .native ⟨3⟩).received [lost, lost] =
      ([.bytes (.error ⟨.read, "connection lost"⟩),
        .bytes (.error ⟨.read, "connection lost"⟩)], some ())
  := by
  let sessions : SessionId → Bool := fun session => session = ⟨0⟩
  let streams : StreamMap := fun _ => some (.incomingUni ⟨⟨0⟩, 3⟩)
  exact ⟨⟨sessions, streams, .ok 4, .finished⟩,
    ⟨sessions, streams, .error "closed", .error "connection lost"⟩, rfl, rfl, rfl⟩

/-- A stream that gives some bytes and is not registered any more from then on, polled three times
more. -/
theorem Receiver.goes_on_notFound :
  ∃ found lost : Turn, ∃ errors : List FailureKind, errors.length = 3 ∧
    ((Receiver.bytesReceived .native ⟨3⟩).received (found :: List.replicate 3 lost)).1.map
      Received.outcome = .success :: errors.map .failure
  := by
  let found : Turn :=
    ⟨fun _ => true, fun _ => some (.incomingUni ⟨⟨0⟩, 3⟩), .error "closed", .data [104, 105]⟩
  let lost : Turn := ⟨fun _ => false, fun _ => none, .error "closed", .finished⟩
  have hok : ∀ turn ∈ [found], (Receiver.bytesReceived .native ⟨3⟩).outcome turn = .success := by
    intro turn hturn
    rw [List.mem_singleton.mp hturn]
    rfl
  have hfailing : ∀ turn ∈ List.replicate 3 lost,
      ∃ kind, (Receiver.bytesReceived .native ⟨3⟩).outcome turn = .failure kind := by
    intro turn hturn
    rw [List.eq_of_mem_replicate hturn]
    exact ⟨.bytes .streamNotFound, rfl⟩
  obtain ⟨errors, hlen, houtcomes, -⟩ := (goes_on (.bytesReceived .native ⟨3⟩)
    (found :: List.replicate 3 lost)).2.2 [found] (List.replicate 3 lost) rfl hok hfailing
  exact ⟨found, lost, errors, hlen, houtcomes⟩

end WebTransport

end Cyclers
