import Cyclers.Http.Streams
import Cyclers.WebTransport.Effects

/-!
# How often an effect is performed

Requests are executed, sessions connected and streams created in the streams that are obtained
from a source, not in the loop of a driver.  Each of these streams performs the effect of a command
at most once, whatever the others do.  How often it is performed in all is therefore for the program
to choose, by the number of streams that it obtains.
-/

open Async

namespace Cyclers

universe u v

/-- The effect of an item is performed at most once by each subscriber that was there when the item
was given and keeps it, and by no other, and so at most once if there is only one of them. -/
def OncePerObserver {α : Type*} (items : List α) (count : ℕ) (subs : ℕ → Subscriber α)
    (log : List (ℕ × ℕ)) : Prop :=
  ∀ i, (InTurn.subscribers log i).Nodup ∧
    (∀ j ∈ InTurn.subscribers log i, j ∈ Subscribed.observers items count subs i) ∧
    (InTurn.subscribers log i).length ≤ (Subscribed.observers items count subs i).length

theorem OncePerObserver.of_subscribed {α : Type*} {items : List α} {count : ℕ}
    {subs : ℕ → Subscriber α} {log : List (ℕ × ℕ)} (h : Subscribed items count subs log) :
  OncePerObserver items count subs log
  := by
  intro i
  refine ⟨h.inTurn.subscribers_nodup i, ?_, h.length_subscribers_le i⟩
  intro j hj
  apply h.mem_observers (InTurn.mem_subscribers.mp hj)

open Http WebTransport

/-- Each stream of responses executes each request at most once, and each stream of the WebTransport
source connects for each command to establish a session, and creates a stream for each command to
create one, at most once. -/
theorem once_per_observer {B R : Type u} {F : Type v} {convertible : R → Bool} :
  (∀ (tr : List (StreamsEvent B R)) (s : StreamsState B R),
    (StreamsState.machine convertible).run (StreamsState.init B R) tr = some s →
      OncePerObserver s.sink s.count s.subscribers s.executions) ∧
    ∀ (tr : List (SourceEvent F)) (s : SourceState F),
      (SourceState.machine F).run (SourceState.init F) tr = some s →
        OncePerObserver s.sink s.count s.subscribers s.effects
  := by
  constructor
  · intro tr s hr
    apply OncePerObserver.of_subscribed (StreamsState.Executed.of_run hr)
  · intro tr s hr
    apply OncePerObserver.of_subscribed (SourceState.Performed.of_run hr)

/-- Two streams of responses execute one request twice, and two streams of sessions connect twice
for one command. -/
theorem two_observers :
  (∃ (tr : List (StreamsEvent Unit Unit)) (s : StreamsState Unit Unit),
    (StreamsState.machine fun _ => true).run (StreamsState.init Unit Unit) tr = some s ∧
      s.sink = [.sendRequest ()] ∧ InTurn.subscribers s.executions 0 = [0, 1]) ∧
    ∃ (tr : List (SourceEvent Unit)) (s : SourceState Unit),
      (SourceState.machine Unit).run (SourceState.init Unit) tr = some s ∧
        s.sink = [.establishSession ⟨"a"⟩] ∧ InTurn.subscribers s.effects 0 = [0, 1]
  := by
  constructor
  · refine ⟨[.responses, .responses, .sink (.sendRequest ()), .pollRequest 0, .pollRequest 1,
      .pollDefaultClient 0, .pollClient 1, .zip 0, .zip 1], _, rfl, rfl, rfl⟩
  · refine ⟨[.obtain .sessionReady, .obtain .sessionReady, .client none,
      .sink (.establishSession ⟨"a"⟩), .pollClient 0, .pollCommand 0, .pollClient 1,
      .pollCommand 1, .zip 0, .zip 1], _, rfl, rfl, rfl⟩

/-- One stream of responses executes a request, and one of two streams of sessions connects, as the
other one is dropped. -/
theorem once_per_observer_one :
  (∃ s : StreamsState Unit Unit,
    (StreamsState.machine fun _ => true).run (StreamsState.init Unit Unit)
      [.responses, .sink (.sendRequest ()), .pollRequest 0, .pollDefaultClient 0, .zip 0] =
        some s ∧ s.executions = [(0, 0)] ∧
      OncePerObserver s.sink s.count s.subscribers s.executions) ∧
    ∃ s : SourceState Unit,
      (SourceState.machine Unit).run (SourceState.init Unit)
        [.obtain .sessionReady, .obtain .sessionReady, .drop 1, .client none,
          .sink (.establishSession ⟨"a"⟩), .pollClient 0, .pollCommand 0, .zip 0] = some s ∧
        s.effects = [(0, 0)] ∧ OncePerObserver s.sink s.count s.subscribers s.effects
  := by
  constructor
  · refine ⟨_, rfl, rfl, ?_⟩
    apply (@once_per_observer Unit Unit Unit fun _ => true).1
      [.responses, .sink (.sendRequest ()), .pollRequest 0, .pollDefaultClient 0, .zip 0]
    rfl
  · refine ⟨_, rfl, rfl, ?_⟩
    apply (@once_per_observer Unit Unit Unit fun _ => true).2
      [.obtain .sessionReady, .obtain .sessionReady, .drop 1, .client none,
        .sink (.establishSession ⟨"a"⟩), .pollClient 0, .pollCommand 0, .zip 0]
    rfl

end Cyclers
