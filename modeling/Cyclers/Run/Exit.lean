import Cyclers.Run.Outcome
import Cyclers.Terminal.Command

/-!
# When the application ends

Once the first driver has exited, the application waits for the loops over the sink streams.
Such a loop ends when its sink stream does.  When its receiver has been dropped, it finds so
only with an item in hand that the channel does not accept; while it awaits the sink stream
it goes on waiting.
-/

open Async

namespace Cyclers

universe u v w

/-! ### The items a channel accepts -/

namespace Lane

variable {T E : Type*}

/-- The number of items the channel of a lane accepts along a trace: those sent before the
receiver is dropped. -/
def accepted : List (LaneEvent T E) → ℕ
  | [] => 0
  | .reserve :: tr => accepted tr + 1
  | .dropReceiver :: _ => 0
  | .sink _ :: tr => accepted tr
  | .recv :: tr => accepted tr

/-- The channel accepts an item when a permit is granted while the receiver is alive. -/
theorem accepted_reserve {tr : List (LaneEvent T E)} (h : .dropReceiver ∉ tr) :
  accepted (tr ++ [.reserve]) = accepted tr + 1
  := by
  induction tr with
  | nil => rfl
  | cons f tr ih =>
      rw [List.mem_cons, not_or] at h
      cases f with
      | dropReceiver => cases h.1 rfl
      | reserve => exact congrArg (· + 1) (ih h.2)
      | sink item => exact ih h.2
      | recv => exact ih h.2

/-- Nothing else makes the channel accept one more item. -/
theorem accepted_concat {tr : List (LaneEvent T E)} {e : LaneEvent T E}
    (h : e ≠ .reserve ∨ .dropReceiver ∈ tr) :
  accepted (tr ++ [e]) = accepted tr
  := by
  induction tr with
  | nil => cases e <;> simp_all [accepted]
  | cons f tr ih =>
      cases f with
      | dropReceiver => rfl
      | reserve => exact congrArg (· + 1) (ih (by simpa using h))
      | sink item => exact ih (by simpa using h)
      | recv => exact ih (by simpa using h)

/-- How the items yielded by the sink stream and those accepted by the channel tell where the
loop over the sink stream stands. -/
structure Counted (tr : List (LaneEvent T E)) (l : Lane T) : Prop where
  next : l.proxy = .next → (okItems tr).length = accepted tr
  reserve : ∀ x, l.proxy = .reserve x → (okItems tr).length = accepted tr + 1
  finished : .sink none ∈ tr → l.proxy = .ended
  ended : l.proxy = .ended →
    .sink none ∈ tr ∨ .dropReceiver ∈ tr ∧ accepted tr < (okItems tr).length

theorem Counted.init :
  Counted ([] : List (LaneEvent T E)) (makeProxyChannel T)
  := by
  constructor <;> simp [makeProxyChannel, accepted]

/-- An event of a lane keeps the count of its items. -/
theorem Counted.step {tr : List (LaneEvent T E)} {l l' : Lane T} {e : LaneEvent T E}
    {p : Poll (Option (Except E Unit))} (h : Counted tr l) (hl : Inv tr l)
    (hs : Step l e l' p) :
  Counted (tr ++ [e]) l'
  := by
  obtain ⟨next, reserve, finished, ended⟩ := h
  have hdrop := hl.receiver
  have hcount := @accepted_concat T E tr e
  cases hs with
  | pull x hp =>
      have hnext := next hp
      constructor <;> simp_all
  | fail e hp => constructor <;> simp_all
  | finish hp => constructor <;> simp_all [Lane.finish]
  | send x c hp hc =>
      have hr := (Mpsc.reserve_eq_some.mp hc).1
      have hheld := reserve x hp
      have hsent := @accepted_reserve T E tr
      constructor <;> simp_all
  | disconnect x hp hr =>
      have hheld := reserve x hp
      constructor <;> simp_all [Lane.finish]
  | recv x c hr hc => constructor <;> simp_all
  | eos hr hc => constructor <;> simp_all
  | drop hr => constructor <;> simp_all

/-- The count holds of every state a lane reaches. -/
theorem Counted.of_run {tr : List (LaneEvent T E)} {l : Lane T}
    (h : (machine T E).run (makeProxyChannel T) tr = some l) :
  Counted tr l
  := by
  apply (machine T E).run_induction (P := Counted) Counted.init _ tr l h
  intro tr l e l' hr hl hs
  obtain ⟨p, hp⟩ := exists_of_machine_step hs
  apply hl.step (Inv.of_run hr) hp

end Lane

/-! ### Quiescent states -/

variable {n : ℕ} {T : Fin (n + 1) → Type u} {V : Fin (n + 1) → Type v} {E : Type w}

namespace RunState

/-- The events that need nothing from the drivers and the sink streams: the stream of a
driver that has exited is polled again, and the permit to send an item is granted or
denied. -/
def internal : RunEvent T V E → Prop
  | .driverEnd _ => True
  | .lane _ .reserve => True
  | _ => False

/-- In a quiescent state, a loop that holds an item has a receiver. -/
theorem receiver_of_quiescent {s : RunState T V E} (hq : (machine T V E).Quiescent internal s)
    (ho : s.outcome = none) {i : Fin (n + 1)} {x : T i} (hx : (s.lanes i).proxy = .reserve x) :
  (s.lanes i).channel.receiver = true
  := by
  by_contra hr
  have hnone : (s.lanes i).channel.reserve x = .ready none :=
    Mpsc.reserve_eq_none.mpr (Bool.eq_false_of_not_eq_true hr)
  have hpoll : (s.lanes i).poll (.reserve : LaneEvent (T i) E) =
      some ((s.lanes i).finish, .ready none) := by
    simp only [Lane.poll, hx, hnone]
  apply hq.not_step _ (Step.lane i .reserve _ _ ho hpoll).machine
  trivial

/-- In a quiescent state without an outcome, the loop over a sink stream has ended exactly
when the sink stream has, or has yielded an item that the channel did not accept before its
receiver was dropped. -/
theorem ended_of_quiescent {tr : List (RunEvent T V E)} {s : RunState T V E}
    (h : (machine T V E).run (setupPartial T V E) tr = some s)
    (hq : (machine T V E).Quiescent internal s) (ho : s.outcome = none) {i : Fin (n + 1)}
    (hi : .lane i (.sink none) ∈ tr ∨ .lane i .dropReceiver ∈ tr ∧
      Lane.accepted (laneEvents i tr) < (Lane.okItems (laneEvents i tr)).length) :
  (s.lanes i).proxy = .ended
  := by
  have hcount := Lane.Counted.of_run (lane_run h i)
  rcases hi with hend | ⟨hdrop, hlt⟩
  · apply hcount.finished (mem_laneEvents.mpr hend)
  · cases hp : (s.lanes i).proxy with
    | next =>
        have heq := hcount.next hp
        omega
    | reserve x =>
        have hr := receiver_of_quiescent hq ho hp
        rw [(lane_inv h i).receiver.mpr (mem_laneEvents.mpr hdrop)] at hr
        cases hr
    | ended => rfl

/-- When the application ends.  In every quiescent state reached in which the first driver
has exited with `v` and there is no error, the application has ended, with `v`, exactly when
each sink stream has ended or, its receiver dropped, has yielded an item that the channel
had not accepted before. -/
theorem outcome_quiescent {tr : List (RunEvent T V E)} {s : RunState T V E}
    (h : (machine T V E).run (setupPartial T V E) tr = some s)
    (hq : (machine T V E).Quiescent internal s) {v : V 0} (hv : .driver 0 (.ok v) ∈ tr)
    (he : firstError false tr = none) :
  s.outcome = some (.ok v) ↔
    ∀ i, .lane i (.sink none) ∈ tr ∨ .lane i .dropReceiver ∈ tr ∧
      Lane.accepted (laneEvents i tr) < (Lane.okItems (laneEvents i tr)).length
  := by
  have hinv := Inv.of_run h
  have hret : s.aggregate = .ret (.ok v) := (hinv.exited v).mpr (mem_headValue.mpr hv)
  constructor
  · intro ho i
    obtain ⟨-, hend⟩ := hinv.of_outcome_ok ho
    have hcount := Lane.Counted.of_run (lane_run h i)
    rw [← mem_laneEvents, ← mem_laneEvents]
    apply hcount.ended (hend i)
  · intro hall
    have hok : s.proxy = .ret (.ok ()) := by
      cases hp : s.proxy with
      | panic => cases hinv.proxy hp
      | loop =>
          have ho : s.outcome = none := outcome_eq_none.mpr (.inr ⟨⟨v, hret⟩, hp⟩)
          obtain ⟨i, hi⟩ := hinv.going hp
          cases hi (ended_of_quiescent h hq ho (hall i))
      | ret r =>
          cases r with
          | ok u => rfl
          | error e =>
              have hfail := failure_eq_firstError h
              rw [he, failure, hret, hp] at hfail
              cases hfail
    rw [outcome, hret, hok]
    rfl

/-- The terminal driver, alone, exits at the command to do so, and drops its receiver; its
sink stream stays pending.  Only the sink stream can wake the application, which has not
ended. -/
theorem exit_pending :
  ∃ tr s,
    tr = [.lane 0 (.sink (some (.ok (.exit 3)))), .lane 0 .reserve, .lane 0 .recv,
      .lane 0 .dropReceiver, .driver 0 (.ok 3)] ∧
    (machine (fun _ : Fin 1 => TerminalCommand) (fun _ => ExitCode) String).run
      (setupPartial _ _ _) tr = some s ∧
    (s.lanes 0).received = [.exit 3] ∧ firstError false tr = none ∧
    (machine _ _ _).Quiescent (fun e => ∀ i item, e ≠ .lane i (.sink item)) s ∧
    s.outcome ≠ some (.ok 3)
  := by
  refine ⟨_, _, rfl, rfl, rfl, rfl, ?_, nofun⟩
  intro e he
  cases e with
  | driver i out =>
      obtain rfl := Fin.fin_one_eq_zero i
      rfl
  | driverEnd i =>
      obtain rfl := Fin.fin_one_eq_zero i
      rfl
  | lane i e =>
      obtain rfl := Fin.fin_one_eq_zero i
      cases e with
      | sink item => cases he 0 item rfl
      | _ => rfl

/-- The same driver, once its sink stream yields one more item. -/
theorem exit_once_pulled :
  ∃ s, (machine (fun _ : Fin 1 => TerminalCommand) (fun _ => ExitCode) String).run
      (setupPartial _ _ _)
      [.lane 0 (.sink (some (.ok (.exit 3)))), .lane 0 .reserve, .lane 0 .recv,
        .lane 0 .dropReceiver, .driver 0 (.ok 3), .lane 0 (.sink (some (.ok .flush))),
        .lane 0 .reserve] = some s ∧
    s.outcome = some (.ok 3)
  := by
  have h : (machine (fun _ : Fin 1 => TerminalCommand) (fun _ => ExitCode) String).run
      (setupPartial _ _ _)
      [.lane 0 (.sink (some (.ok (.exit 3)))), .lane 0 .reserve, .lane 0 .recv,
        .lane 0 .dropReceiver, .driver 0 (.ok 3), .lane 0 (.sink (some (.ok .flush))),
        .lane 0 .reserve] = some _ := rfl
  refine ⟨_, h, (outcome_quiescent h ?_ (by simp) rfl).mpr ?_⟩
  · intro e _
    rfl
  · intro i
    obtain rfl := Fin.fin_one_eq_zero i
    right
    constructor
    · simp
    · decide

end RunState

end Cyclers
