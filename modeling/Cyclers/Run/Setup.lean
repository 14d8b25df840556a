import Cyclers.Run.Proxy
import Mathlib.Data.Fin.Basic
import Mathlib.Logic.Function.Basic
import Mathlib.Data.Fintype.Basic

/-!
# Running the application

The `run` function that `setup_partial` returns joins two futures: `aggregateRun`, which
polls the run loop futures of the drivers until the first driver exits, and `proxy`, which
passes on the items of the sink streams to the drivers.  `RunState.step` is one event of
this joined future: the run loop future of a driver completes, or something happens in the
lane of a sink stream.

There are `n + 1` drivers, each with its own type of commands `T i` and of termination
values `V i`; all errors are boxed in one type `E`.
-/

open Async

namespace Cyclers

universe u v w

/-- There is a first driver. -/
instance (priority := 1100) neZero_succ (n : ℕ) : @NeZero ℕ Zero.ofOfNat0 (n + 1) :=
  ⟨Nat.succ_ne_zero n⟩

variable {n : ℕ} {T : Fin (n + 1) → Type u} {V : Fin (n + 1) → Type v} {E : Type w}

/-- What the run loop future of a driver yields in the merged stream: the termination value
of the first driver as `some`, that of another driver as `none`. -/
def headOrTail (i : Fin (n + 1)) : Except E (V i) → Except E (Option (V 0)) :=
  Fin.cases (motive := fun i => Except E (V i) → Except E (Option (V 0)))
    (fun out => out.map some) (fun _ out => out.map fun _ => none) i

/-- The loop of the aggregate run loop future over the merged stream, from what the stream
yields.  It returns at the first error and at the termination value of the first driver,
and panics at the end of the stream. -/
def aggregateRun {α : Type v} : Option (Except E (Option α)) → Turn (Except E α)
  | some (.error e) => .ret (.error e)
  | some (.ok (some out)) => .ret (.ok out)
  | some (.ok none) => .loop
  | none => .panic

/-- The loop of the proxy future over the merged streams unfolded over the sink streams. -/
def proxyLoop : Option (Except E Unit) → Turn (Except E Unit)
  | some (.error e) => .ret (.error e)
  | some (.ok ()) => .loop
  | none => .ret (.ok ())

/-- Whether the loop over a sink stream has ended. -/
def ProxyState.isEnded {T : Type u} : ProxyState T → Bool
  | .ended => true
  | _ => false

/-- The state of the future returned by `run`: the streams of the run loop futures, the
lanes of the sink streams, and the two loops that are joined. -/
structure RunState (T : Fin (n + 1) → Type u) (V : Fin (n + 1) → Type v) (E : Type w) where
  futures : Fin (n + 1) → OnceFuture
  lanes : ∀ i, Lane (T i)
  aggregate : Turn (Except E (V 0))
  proxy : Turn (Except E Unit)

/-- What happens while the application runs: the run loop future of a driver completes, its
stream is polled again, or something happens in a lane. -/
inductive RunEvent (T : Fin (n + 1) → Type u) (V : Fin (n + 1) → Type v) (E : Type w) where
  | driver (i : Fin (n + 1)) : Except E (V i) → RunEvent T V E
  | driverEnd (i : Fin (n + 1)) : RunEvent T V E
  | lane (i : Fin (n + 1)) : LaneEvent (T i) E → RunEvent T V E

namespace RunState

/-- The outcome of the application, once there is one. -/
def outcome (s : RunState T V E) : Option (Outcome (V 0) E) :=
  tryJoin s.aggregate s.proxy

/-- The state `setupPartial` starts from. -/
def setupPartial (T : Fin (n + 1) → Type u) (V : Fin (n + 1) → Type v) (E : Type w) :
    RunState T V E where
  futures _ := .pending
  lanes i := Lane.makeProxyChannel (T i)
  aggregate := .loop
  proxy := .loop

/-- The merged stream of the run loop futures is polled and gives `p`, after which the
streams of the futures are `futures`. -/
def pollAggregate (s : RunState T V E) (futures : Fin (n + 1) → OnceFuture)
    (p : Poll (Option (Except E (Option (V 0))))) : RunState T V E :=
  { s with
    futures := futures
    aggregate := s.aggregate.poll aggregateRun (merge (decide (∀ j, futures j = .ended)) p) }

/-- The merged stream of the proxy loops is polled and gives `p`, after which the lanes are
`lanes`. -/
def pollProxy (s : RunState T V E) (lanes : ∀ i, Lane (T i))
    (p : Poll (Option (Except E Unit))) : RunState T V E :=
  { s with
    lanes := lanes
    proxy := s.proxy.poll proxyLoop (merge (decide (∀ j, (lanes j).proxy.isEnded)) p) }

/-- One event of the application.  Nothing happens any more once there is an outcome; the
run loop futures are polled until the aggregate run loop future returns. -/
def step (s : RunState T V E) (e : RunEvent T V E) : Option (RunState T V E) :=
  match s.outcome with
  | some _ => none
  | none =>
      match e with
      | .driver i out =>
          match s.aggregate, s.futures i with
          | .loop, .pending =>
              some (s.pollAggregate (Function.update s.futures i .yielded)
                (.ready (some (headOrTail i out))))
          | _, _ => none
      | .driverEnd i =>
          match s.aggregate, s.futures i with
          | .loop, .yielded =>
              some (s.pollAggregate (Function.update s.futures i .ended) (.ready none))
          | _, _ => none
      | .lane i e =>
          match (s.lanes i).poll e with
          | none => none
          | some (l, p) => some (s.pollProxy (Function.update s.lanes i l) p)

/-- The application as a machine. -/
def machine (T : Fin (n + 1) → Type u) (V : Fin (n + 1) → Type v) (E : Type w) :
    Machine (RunState T V E) (RunEvent T V E) where
  step := step

/-- The events of the application, one case for each way one can happen. -/
inductive Step (s : RunState T V E) : RunEvent T V E → RunState T V E → Prop where
  | fail (i : Fin (n + 1)) (e : E) : s.outcome = none → s.aggregate = .loop →
      s.futures i = .pending →
      Step s (.driver i (.error e)) { s with
        futures := Function.update s.futures i .yielded
        aggregate := .ret (.error e) }
  | head (v : V 0) : s.outcome = none → s.aggregate = .loop → s.futures 0 = .pending →
      Step s (.driver 0 (.ok v)) { s with
        futures := Function.update s.futures 0 .yielded
        aggregate := .ret (.ok v) }
  | tail (i : Fin n) (v : V i.succ) : s.outcome = none → s.aggregate = .loop →
      s.futures i.succ = .pending →
      Step s (.driver i.succ (.ok v)) { s with
        futures := Function.update s.futures i.succ .yielded }
  | driverEnd (i : Fin (n + 1)) : s.outcome = none → s.aggregate = .loop →
      s.futures i = .yielded →
      Step s (.driverEnd i) { s with
        futures := Function.update s.futures i .ended
        aggregate := if ∀ j, Function.update s.futures i .ended j = .ended then .panic
          else .loop }
  | lane (i : Fin (n + 1)) (e : LaneEvent (T i) E) (l : Lane (T i))
      (p : Poll (Option (Except E Unit))) : s.outcome = none → (s.lanes i).poll e = some (l, p) →
      Step s (.lane i e) (s.pollProxy (Function.update s.lanes i l) p)

theorem headOrTail_error (i : Fin (n + 1)) (e : E) :
  headOrTail (V := V) i (.error e) = .error e
  := by
  cases i using Fin.cases <;> rfl

/-- The item of a driver other than the first that has exited leaves the aggregate run loop
going round. -/
theorem pollAggregate_tail {s : RunState T V E} (ha : s.aggregate = .loop)
    (futures : Fin (n + 1) → OnceFuture) (i : Fin n) (v : V i.succ) :
  s.pollAggregate futures (.ready (some (headOrTail i.succ (.ok v)))) = { s with futures := futures }
  := by
  obtain ⟨futures, lanes, aggregate, proxy⟩ := s
  obtain rfl : aggregate = .loop := ha
  rfl

/-- The end of one of the merged streams leaves the aggregate run loop going round, unless
all of them have ended. -/
theorem pollAggregate_end {s : RunState T V E} (ha : s.aggregate = .loop)
    (futures : Fin (n + 1) → OnceFuture) :
  s.pollAggregate futures (.ready none) = { s with
    futures := futures
    aggregate := if ∀ j, futures j = .ended then .panic else .loop }
  := by
  rw [pollAggregate, ha]
  by_cases h : ∀ j, futures j = .ended
  · simp [h, merge, Turn.poll, aggregateRun]
  · simp [h, merge, Turn.poll]

/-- The machine makes the steps of `Step`. -/
theorem step_of_machine {s t : RunState T V E} {e : RunEvent T V E}
    (h : (machine T V E).step s e = some t) :
  Step s e t
  := by
  change s.step e = some t at h
  unfold step at h
  cases ho : s.outcome with
  | some o =>
      rw [ho] at h
      cases h
  | none =>
      rw [ho] at h
      cases e with
      | driver i out =>
          dsimp only at h
          split at h <;> cases h
          cases out with
          | error e =>
              rw [headOrTail_error]
              apply Step.fail _ _ ho ‹_› ‹_›
          | ok v =>
              cases i using Fin.cases with
              | zero => apply Step.head _ ho ‹_› ‹_›
              | succ i =>
                  rw [pollAggregate_tail ‹_›]
                  apply Step.tail _ _ ho ‹_› ‹_›
      | driverEnd i =>
          dsimp only at h
          split at h <;> cases h
          rw [pollAggregate_end ‹_›]
          apply Step.driverEnd _ ho ‹_› ‹_›
      | lane i e =>
          dsimp only at h
          split at h <;> cases h
          apply Step.lane _ _ _ _ ho ‹_›

/-- The steps of `Step` are steps of the machine. -/
theorem Step.machine {s t : RunState T V E} {e : RunEvent T V E} (h : Step s e t) :
  (machine T V E).step s e = some t
  := by
  change s.step e = some t
  unfold step
  cases h with
  | fail i e ho ha hf =>
      simp only [ho, ha, hf, headOrTail_error]
      rw [pollAggregate, ha]
      rfl
  | head v ho ha hf =>
      simp only [ho, ha, hf]
      rw [pollAggregate, ha]
      rfl
  | tail i v ho ha hf =>
      simp only [ho, ha, hf, pollAggregate_tail ha]
  | driverEnd i ho ha hf =>
      simp only [ho, ha, hf, pollAggregate_end ha]
  | lane i e l p ho hl => simp only [ho, hl]

end RunState

end Cyclers
