import Cyclers.Run.Invariant

/-!
# The outcome of the application

The application fails with the first error among those of the drivers, while the first
driver has not exited, and those of the sink streams.  It succeeds with the termination
value of the first driver, once every loop over a sink stream has ended.  The other drivers
have no part in it.
-/

open Async

namespace Cyclers

universe u v w

variable {n : ℕ} {T : Fin (n + 1) → Type u} {V : Fin (n + 1) → Type v} {E : Type w}

/-! ### The first error -/

/-- The error that an event yields, if it counts: the error of a driver counts as long as the
first driver has not exited, that of a sink stream always does. -/
def errorOf (exited : Bool) : RunEvent T V E → Option E
  | .driver _ (.error e) => if exited then none else some e
  | .lane _ (.sink (some (.error e))) => some e
  | _ => none

/-- The first error of a trace, when `exited` tells whether the first driver has exited
before it. -/
def firstError : Bool → List (RunEvent T V E) → Option E
  | _, [] => none
  | exited, e :: tr =>
      (errorOf exited e).or (firstError (exited || (RunState.headValue e).isSome) tr)

@[simp]
theorem firstError_nil (exited : Bool) :
  firstError exited ([] : List (RunEvent T V E)) = none
  := rfl

/-- The first error of an appended trace is that of the first part, or else that of the
second. -/
theorem firstError_append (exited : Bool) (tr tr' : List (RunEvent T V E)) :
  firstError exited (tr ++ tr') =
    (firstError exited tr).or
      (firstError (exited || tr.any fun e => (RunState.headValue e).isSome) tr')
  := by
  induction tr generalizing exited with
  | nil => simp
  | cons e tr ih =>
      rw [List.cons_append, firstError, firstError, ih, Option.or_assoc, List.any_cons,
        Bool.or_assoc]

/-- A trace with one more event has the first error it had, or else that of the event. -/
theorem firstError_concat (exited : Bool) (tr : List (RunEvent T V E)) (e : RunEvent T V E) :
  firstError exited (tr ++ [e]) =
    (firstError exited tr).or
      (errorOf (exited || tr.any fun e => (RunState.headValue e).isSome) e)
  := by
  rw [firstError_append, firstError, firstError_nil, Option.or_none]

/-- The error a loop has returned. -/
def failed {α : Type*} : Turn (Except E α) → Option E
  | .ret (.error e) => some e
  | _ => none

namespace RunState

/-- The error that one of the two joined futures has returned. -/
def failure (s : RunState T V E) : Option E :=
  (failed s.aggregate).or (failed s.proxy)

/-- The application has failed when one of the two joined futures has. -/
theorem Inv.outcome_err {tr : List (RunEvent T V E)} {s : RunState T V E} (h : Inv tr s) (e : E) :
  s.outcome = some (.err e) ↔ s.failure = some e
  := by
  have ha := h.aggregate
  have hp := h.proxy
  obtain ⟨futures, lanes, aggregate, proxy⟩ := s
  rcases aggregate with _ | ⟨_ | _⟩ | _ <;> rcases proxy with _ | ⟨_ | _⟩ | _ <;>
    simp_all [outcome, tryJoin, failure, failed]

/-- The application does not panic: the merged stream of the run loop futures does not end
before the first driver exits. -/
theorem Inv.outcome_ne {tr : List (RunEvent T V E)} {s : RunState T V E} (h : Inv tr s) :
  s.outcome ≠ some .panicked
  := by
  have ha := h.aggregate
  have hp := h.proxy
  obtain ⟨futures, lanes, aggregate, proxy⟩ := s
  rcases aggregate with _ | ⟨_ | _⟩ | _ <;> rcases proxy with _ | ⟨_ | _⟩ | _ <;>
    simp_all [outcome, tryJoin]

/-- Neither of the joined futures has failed while there is no outcome. -/
theorem failed_of_outcome {s : RunState T V E} (ho : s.outcome = none) :
  failed s.aggregate = none ∧ failed s.proxy = none
  := by
  rcases outcome_eq_none.mp ho with ⟨ha, hp | hp⟩ | ⟨⟨v, ha⟩, hp⟩
  all_goals
    rw [ha, hp]
    exact ⟨rfl, rfl⟩

/-- An event of a lane fails the application exactly when it is an error of the sink
stream. -/
theorem failure_pollProxy {s : RunState T V E} (ho : s.outcome = none) {i : Fin (n + 1)}
    {e : LaneEvent (T i) E} {l : Lane (T i)} {p : Poll (Option (Except E Unit))}
    (hl : Lane.Step (s.lanes i) e l p) (lanes : ∀ i, Lane (T i)) (exited : Bool) :
  (s.pollProxy lanes p).failure = errorOf exited (.lane i e : RunEvent T V E)
  := by
  obtain ⟨ha, hp⟩ := failed_of_outcome ho
  have ht := proxy_pollProxy (s := s) lanes p
  rw [failure, aggregate_pollProxy, ha, Option.none_or, ht]
  cases hl with
  | fail e hl => rfl
  | finish hl =>
      dsimp only
      split
      · rfl
      · exact hp
  | disconnect x hl hr =>
      dsimp only
      split
      · rfl
      · exact hp
  | send x c hl hc => rfl
  | _ => exact hp

/-- The joined futures have failed exactly with the first error of the trace. -/
theorem failure_eq_firstError {tr : List (RunEvent T V E)} {s : RunState T V E}
    (h : (machine T V E).run (setupPartial T V E) tr = some s) :
  s.failure = firstError false tr
  := by
  apply (machine T V E).run_induction (P := fun tr s => s.failure = firstError false tr) rfl _ tr s h
  intro tr s e t hs hP ht
  have hinv := Inv.of_run hs
  have hstep := step_of_machine ht
  have ho : s.outcome = none := by cases hstep <;> assumption
  obtain ⟨ha, hp⟩ := failed_of_outcome ho
  have hnone : firstError false tr = none := by
    rw [← hP, failure, ha, hp]
    rfl
  rw [firstError_concat, hnone, Option.none_or]
  cases hstep with
  | fail i e _ hloop _ =>
      have hexited : (tr.any fun e => (headValue e).isSome) = false := by
        rw [List.any_eq_false]
        intro f hf hsome
        obtain ⟨v, hv⟩ := Option.isSome_iff_exists.mp hsome
        have hret := (hinv.exited v).mpr (List.mem_filterMap.mpr ⟨f, hf, hv⟩)
        rw [hloop] at hret
        cases hret
      rw [hexited]
      rfl
  | head v _ _ _ => exact hp
  | tail i v _ _ _ =>
      rw [failure, ha]
      exact hp
  | driverEnd i _ _ _ =>
      unfold failure
      dsimp only
      split
      · exact hp
      · exact hp
  | lane i e l p _ hl => apply failure_pollProxy ho (Lane.step_of_poll hl)

/-- No event happens once the application has an outcome. -/
theorem Step.outcome {s t : RunState T V E} {e : RunEvent T V E} (h : Step s e t) :
  s.outcome = none
  := by
  cases h <;> assumption

/-! ### The drivers that do not count -/

/-- Whether an event is of the streams of the run loop futures and yields neither an error
nor the termination value of the first driver: a driver other than the first exits, or the
stream of a driver that has exited is polled again. -/
def idle : RunEvent T V E → Bool
  | .driver i (.ok _) => decide (i ≠ 0)
  | .driverEnd _ => true
  | _ => false

/-- `Ahead s s'`: the states `s` and `s'` differ only in that more drivers may have exited in
`s`, none of which was the first. -/
structure Ahead (s s' : RunState T V E) : Prop where
  inv : ∃ tr, Inv tr s
  futures : ∀ i, s.futures i = .pending → s'.futures i = .pending
  lanes : s'.lanes = s.lanes
  aggregate : s'.aggregate = s.aggregate
  proxy : s'.proxy = s.proxy

theorem Ahead.outcome {s s' : RunState T V E} (h : Ahead s s') :
  s'.outcome = s.outcome
  := by
  rw [RunState.outcome, h.aggregate, h.proxy]
  rfl

/-- A stream of a run loop future that is no longer pending in `s` keeps it ahead. -/
theorem Ahead.update {s s' : RunState T V E} (h : Ahead s s') (i : Fin (n + 1)) {f : OnceFuture}
    (hf : f ≠ .pending) :
  ∀ j, Function.update s.futures i f j = .pending → s'.futures j = .pending
  := by
  intro j hj
  by_cases hji : j = i
  · subst hji
    rw [Function.update_self] at hj
    exact absurd hj hf
  · rw [Function.update_of_ne hji] at hj
    apply h.futures j hj

/-- An idle event of `s` keeps it ahead. -/
theorem Ahead.stutter {s s' t : RunState T V E} {e : RunEvent T V E} (h : Ahead s s')
    (he : idle e = true) (hs : Step s e t) :
  Ahead t s'
  := by
  obtain ⟨tr, hinv⟩ := h.inv
  have hinv' := hinv.step hs
  cases hs with
  | fail i e _ _ _ => cases he
  | head v _ _ _ => cases he
  | tail i v _ _ _ =>
      exact ⟨⟨_, hinv'⟩, h.update i.succ nofun, h.lanes, h.aggregate, h.proxy⟩
  | driverEnd i _ ha _ =>
      have hloop := hinv'.aggregate
      refine ⟨⟨_, hinv'⟩, h.update i nofun, h.lanes, ?_, h.proxy⟩
      rw [h.aggregate, ha]
      dsimp only at hloop ⊢
      split at hloop
      · contradiction
      · rw [if_neg ‹_›]
  | lane i e l p _ _ => cases he

/-- An event that is not idle happens in both of two states, one ahead of the other, and
keeps them so. -/
theorem Ahead.follow {s s' t : RunState T V E} {e : RunEvent T V E} (h : Ahead s s')
    (he : idle e = false) (hs : Step s e t) :
  ∃ t', Step s' e t' ∧ Ahead t t'
  := by
  obtain ⟨tr, hinv⟩ := h.inv
  have hinv' := hinv.step hs
  have ho' : s'.outcome = none := h.outcome.trans hs.outcome
  have hboth : ∀ i j, Function.update s.futures i .yielded j = .pending →
      Function.update s'.futures i .yielded j = .pending := by
    intro i j hj
    have hji : j ≠ i := by
      rintro rfl
      rw [Function.update_self] at hj
      cases hj
    rw [Function.update_of_ne hji] at hj ⊢
    apply h.futures j hj
  cases hs with
  | fail i e ho ha hf =>
      refine ⟨_, Step.fail i e ho' (h.aggregate.trans ha) (h.futures i hf), ⟨_, hinv'⟩,
        hboth i, h.lanes, rfl, h.proxy⟩
  | head v ho ha hf =>
      refine ⟨_, Step.head v ho' (h.aggregate.trans ha) (h.futures 0 hf), ⟨_, hinv'⟩,
        hboth 0, h.lanes, rfl, h.proxy⟩
  | tail i v ho ha hf =>
      have hi : idle (.driver i.succ (.ok v) : RunEvent T V E) = true := by simp [idle]
      rw [hi] at he
      cases he
  | driverEnd i ho ha hf => cases he
  | lane i e l p ho hl =>
      have hl' : (s'.lanes i).poll e = some (l, p) := by rw [h.lanes, hl]
      refine ⟨_, Step.lane i e l p ho' hl', ⟨_, hinv'⟩, h.futures, ?_, h.aggregate, ?_⟩
      · rw [lanes_pollProxy, lanes_pollProxy, h.lanes]
      · rw [proxy_pollProxy, proxy_pollProxy, h.lanes, h.proxy]

/-- The application without its idle events follows the application. -/
theorem ahead_simulation :
  Machine.Simulation (machine T V E) (machine T V E) Ahead (Option.guard fun e => !idle e)
  := by
  constructor
  · intro s s' e t h hs he
    have hi : idle e = true := by simpa [Option.guard] using he
    apply h.stutter hi (step_of_machine hs)
  · intro s s' e t b h hs he
    obtain ⟨rfl, hi⟩ := Option.guard_eq_some_iff.mp he
    have hi : idle e = false := by simpa using hi
    obtain ⟨t', ht', h'⟩ := h.follow hi (step_of_machine hs)
    use t', ht'.machine

/-- The idle events of a run can be left out of it: its outcome and its lanes are the same. -/
theorem run_without_idle {tr : List (RunEvent T V E)} {s : RunState T V E}
    (h : (machine T V E).run (setupPartial T V E) tr = some s) :
  ∃ t, (machine T V E).run (setupPartial T V E) (tr.filter fun e => !idle e) = some t ∧
    t.outcome = s.outcome ∧ t.lanes = s.lanes
  := by
  have hR : Ahead (setupPartial T V E) (setupPartial T V E) :=
    ⟨⟨[], Inv.init⟩, fun _ hi => hi, rfl, rfl, rfl⟩
  obtain ⟨t, ht, hA⟩ := ahead_simulation.run hR h
  use t
  rw [← List.filterMap_eq_filter]
  exact ⟨ht, hA.outcome, hA.lanes⟩

/-- A driver other than the first that exits does not end the run. -/
theorem outcome_tail {s t : RunState T V E} {i : Fin n} {v : V i.succ}
    (h : Step s (.driver i.succ (.ok v)) t) :
  t.outcome = none
  := by
  obtain ⟨futures, hfutures⟩ : ∃ futures, t = { s with futures := futures } := by
    generalize he : (RunEvent.driver i.succ (.ok v) : RunEvent T V E) = e at h
    cases h with
    | head w _ _ _ => cases he
    | tail j w _ _ _ => exact ⟨_, rfl⟩
    | _ => cases he
  rw [hfutures]
  exact h.outcome

/-! ### The outcome -/

/-- When the application succeeds, the first driver has exited with its outcome, and no loop
over a sink stream is left. -/
theorem Inv.of_outcome_ok {tr : List (RunEvent T V E)} {s : RunState T V E} (h : Inv tr s)
    {v : V 0} (ho : s.outcome = some (.ok v)) :
  s.aggregate = .ret (.ok v) ∧ ∀ i, (s.lanes i).proxy = .ended
  := by
  have hend := h.proxied
  obtain ⟨futures, lanes, aggregate, proxy⟩ := s
  rcases aggregate with _ | ⟨_ | _⟩ | _ <;> rcases proxy with _ | ⟨_ | _⟩ | _ <;>
    simp_all [outcome, tryJoin]

/-- The outcome of the application.  It fails exactly with the first error of the trace; it
succeeds only with the termination value of the first driver, when there is no error and
each sink stream has ended or its channel is disconnected; a driver other than the first
that exits neither ends the run nor, left out of it together with the end of its stream,
changes the outcome; and the application does not panic. -/
theorem outcome_run {tr : List (RunEvent T V E)} {s : RunState T V E}
    (h : (machine T V E).run (setupPartial T V E) tr = some s) :
  (∀ e, s.outcome = some (.err e) ↔ firstError false tr = some e) ∧
    (∀ v, s.outcome = some (.ok v) →
      (∀ w, .driver 0 (.ok w) ∈ tr ↔ w = v) ∧ firstError false tr = none ∧
      ∀ i, .lane i (.sink none) ∈ tr ∨ .lane i .dropReceiver ∈ tr) ∧
    (∀ (i : Fin n) (v : V i.succ) t,
      (machine T V E).step s (.driver i.succ (.ok v)) = some t → t.outcome = none) ∧
    (∃ t, (machine T V E).run (setupPartial T V E) (tr.filter fun e => !idle e) = some t ∧
      t.outcome = s.outcome) ∧
    s.outcome ≠ some .panicked
  := by
  have hinv := Inv.of_run h
  refine ⟨?_, ?_, ?_, ?_, ?_⟩
  · intro e
    rw [hinv.outcome_err, failure_eq_firstError h]
  · intro v hv
    obtain ⟨hret, hend⟩ := hinv.of_outcome_ok hv
    refine ⟨?_, ?_, ?_⟩
    · intro w
      rw [← mem_headValue, ← hinv.exited, hret]
      simp [eq_comm]
    · rw [← failure_eq_firstError h, Option.eq_none_iff_forall_ne_some]
      intro e he
      rw [← hinv.outcome_err, hv] at he
      cases he
    · intro i
      have hlane := lane_inv h i
      rcases hlane.ended (hend i) with hs | hr
      · exact .inl (mem_laneEvents.mp hs)
      · exact .inr (mem_laneEvents.mp (hlane.receiver.mp hr))
  · intro i v t ht
    apply outcome_tail (step_of_machine ht)
  · obtain ⟨t, ht, ho, -⟩ := run_without_idle h
    use t
  · apply hinv.outcome_ne

/-- The second of two drivers exits, then the first one does with the value `7`, and the two
sink streams end. -/
theorem outcome_run_two :
  ∃ s, (machine (fun _ : Fin 2 => ℕ) (fun _ => ℕ) String).run (setupPartial _ _ _)
      [.driver 1 (.ok 5), .lane 0 (.sink none), .driverEnd 1, .driver 0 (.ok 7),
        .lane 1 (.sink none)] = some s ∧
    s.outcome = some (.ok 7) ∧ s.outcome ≠ some .panicked
  := by
  have h : (machine (fun _ : Fin 2 => ℕ) (fun _ => ℕ) String).run (setupPartial _ _ _)
      [.driver 1 (.ok 5), .lane 0 (.sink none), .driverEnd 1, .driver 0 (.ok 7),
        .lane 1 (.sink none)] = some _ := rfl
  exact ⟨_, h, rfl, (outcome_run h).2.2.2.2⟩

end RunState

end Cyclers
