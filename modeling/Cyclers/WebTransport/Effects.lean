import Cyclers.WebTransport.Source

/-!
# The effects of the streams of the source

A connection is begun, and a stream is created, in the streams that are obtained from the source,
not in the loops of the driver.  Each of them takes every command of its kind from the shared sink,
and performs its effect at most once.
-/

open Async

namespace Cyclers

namespace WebTransport

universe u

variable {F : Type u}

/-- The position of the command whose effect is pending. -/
def SourceTask.pending : SourceTask → Option ℕ
  | .next _ establish => establish.map Prod.fst
  | .lookup request => request.map Prod.fst
  | .transport request => request.map Prod.fst
  | _ => none

/-- A stream of the source, as a subscriber of the sink. -/
def SourceStream.subscriber (r : SourceStream) : Subscriber (WebTransportCommand F) where
  keeps := r.method.keeps
  start := r.start
  next := r.nextCommand
  pending := r.task.pending

namespace SourceState

/-- The streams of the source as subscribers of the sink. -/
def subscribers (s : SourceState F) : ℕ → Subscriber (WebTransportCommand F) :=
  fun j => (s.streams j).subscriber

/-- The streams of the source perform the effects in turn. -/
def Performed (s : SourceState F) : Prop :=
  Subscribed s.sink s.count s.subscribers s.effects

/-- Changing a stream changes its subscriber. -/
theorem subscribers_set (s : SourceState F) (j : ℕ) (r : SourceStream) :
  (s.set j r).subscribers = Function.update s.subscribers j r.subscriber
  := by
  funext j'
  apply Function.apply_update fun _ => SourceStream.subscriber

theorem Performed.init :
  Performed (init F)
  := by
  refine ⟨?_, InTurn.nil _, nofun⟩
  intro j
  apply Subscriber.Fits.new

/-- A stream moves without an effect. -/
theorem Performed.set {s : SourceState F} (h : Performed s) {j : ℕ} (hj : j < s.count)
    {r : SourceStream} (hm : Subscriber.Move s.sink (s.subscribers j) none r.subscriber) :
  Performed (s.set j r)
  := by
  rw [Performed, subscribers_set]
  apply h.move_none hj hm

/-- A stream goes on, and is the same as a subscriber. -/
theorem Performed.same {s : SourceState F} (h : Performed s) {j : ℕ} {task : SourceTask}
    (ht : s.task j = some task) {r : SourceStream} (hmethod : r.method = (s.streams j).method)
    (hstart : r.start = (s.streams j).start) (hnext : r.nextCommand = (s.streams j).nextCommand)
    (hpending : r.task.pending = task.pending) :
  Performed (s.set j r)
  := by
  obtain ⟨hj, ht⟩ := task_eq_some.mp ht
  apply h.set hj
  rw [SourceStream.subscriber, hmethod, hstart, hnext, hpending, ← ht]
  exact Subscriber.Move.stay

/-- A stream goes on to something for which no effect is pending. -/
theorem Performed.leave {s : SourceState F} (h : Performed s) {j : ℕ} (hj : j < s.count)
    {task : SourceTask} (ht : task.pending = none) :
  Performed (s.setTask j task)
  := by
  apply h.set hj
  rw [SourceStream.subscriber, ht]
  exact Subscriber.Move.leave

/-- A stream performs the effect that is pending. -/
theorem Performed.act {s : SourceState F} (h : Performed s) {j i : ℕ} {task task' : SourceTask}
    (ht : s.task j = some task) (hi : task.pending = some i) (ht' : task'.pending = none) :
  Performed ({ s with effects := s.effects ++ [(j, i)] }.setTask j task')
  := by
  obtain ⟨hj, ht⟩ := task_eq_some.mp ht
  have hpending : (s.subscribers j).pending = some i := by
    rw [subscribers, SourceStream.subscriber, ht, hi]
  rw [Performed, setTask, subscribers_set, SourceStream.subscriber, ht']
  apply h.move hj (Subscriber.Move.act i hpending)

/-- An event keeps the streams in turn. -/
theorem Performed.step {s t : SourceState F} {e : SourceEvent F} (h : Performed s)
    (hs : Step s e t) :
  Performed t
  := by
  have hpending : ∀ {j : ℕ} {task : SourceTask}, s.task j = some task →
      (s.subscribers j).pending = task.pending := by
    intro j task ht
    rw [subscribers, SourceStream.subscriber, (task_eq_some.mp ht).2]
  cases hs with
  | sink command => apply h.append
  | client client => exact h
  | obtain method =>
      rw [Performed, subscribers_set]
      exact h.subscribe method.keeps
  | drop j hj => apply h.leave hj rfl
  | pollClient j client establish ht hget =>
      refine h.same ht ?_ ?_ ?_ ?_ <;> rfl
  | skip j client command ht hget =>
      apply h.set (task_eq_some.mp ht).1
      exact Subscriber.Move.skip command (hpending ht) hget
  | takeEstablish j client command url ht hget hk =>
      apply h.set (task_eq_some.mp ht).1
      exact Subscriber.Move.take command (hpending ht) hget hk
  | takeCreate j client command sendOrder ht hget hk =>
      apply h.set (task_eq_some.mp ht).1
      exact Subscriber.Move.take command (hpending ht) hget hk
  | zip j client i url ht => apply h.act ht rfl rfl
  | found j request ht => refine h.same ht ?_ ?_ ?_ ?_ <;> rfl
  | created j i quicId sendOrder ht => apply h.act ht rfl rfl
  | panicked j i quicId sendOrder ht => apply h.act ht rfl rfl
  | start hn => exact h
  | terminate terminated closing failed => exact h
  | close command hc => exact h
  | sendBytes command w sendEnded failed hget => exact h
  | sendBytesSkip w => exact h
  | connected j client url stableId ht =>
      exact Performed.leave (s := { s with connected := s.connected + 1 }) h
        (task_eq_some.mp ht).1 rfl
  | insertSession j session url ht =>
      exact Performed.leave (s := { s with sessionMap := _ }) h (task_eq_some.mp ht).1 rfl
  | insertStream j quicId method sessionId ht hm =>
      exact Performed.leave (s := { s with streamMap := _ }) h (task_eq_some.mp ht).1 rfl
  | yieldSession j session url ht =>
      exact Performed.leave (s := { s with sessionsYielded := _ }) h (task_eq_some.mp ht).1 rfl
  | yieldStream j id method sessionId ht hm =>
      exact Performed.leave (s := { s with streamsYielded := _ }) h (task_eq_some.mp ht).1 rfl
  | connectFailed j client url err ht => apply h.leave (task_eq_some.mp ht).1 rfl
  | pollReceived j client method sessionId ht hm => apply h.leave (task_eq_some.mp ht).1 rfl
  | notFound j request err ht => apply h.leave (task_eq_some.mp ht).1 rfl
  | transportFailed j request err err' ht => apply h.leave (task_eq_some.mp ht).1 rfl
  | accepted j quicId ht => apply h.leave (task_eq_some.mp ht).1 rfl
  | yieldOther j item ht hn => apply h.leave (task_eq_some.mp ht).1 rfl

/-- The streams of the source perform the effects in turn in every state reached. -/
theorem Performed.of_run {s : SourceState F} {tr : List (SourceEvent F)}
    (hr : (machine F).run (SourceState.init F) tr = some s) :
  Performed s
  := by
  apply (machine F).run_invariant Performed.init _ hr
  intro s e t hs ht
  apply hs.step (step_of_machine ht)

end SourceState

end WebTransport

end Cyclers
