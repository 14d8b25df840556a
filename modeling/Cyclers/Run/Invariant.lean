import Cyclers.Run.Setup

/-!
# The invariants of a running application

A running application shows, for each sink stream, a run of its lane, so the invariant of
a lane holds of every lane of every state reached.  The invariant of the application tells
where its two loops are: the first driver has not exited while the aggregate run loop goes
round, which is why its stream does not end, and the proxy loop ends exactly when every loop
over a sink stream has ended.
-/

open Async

namespace Cyclers

universe u v w

variable {n : ℕ} {T : Fin (n + 1) → Type u} {V : Fin (n + 1) → Type v} {E : Type w}

/-! ### The lanes -/

/-- The event of the lane `i` that an event of the application is, when it is one. -/
def laneEvent (i : Fin (n + 1)) : RunEvent T V E → Option (LaneEvent (T i) E)
  | .lane j e => if h : j = i then some (h ▸ e) else none
  | _ => none

/-- The events of the lane `i` in a trace of the application. -/
def laneEvents (i : Fin (n + 1)) (tr : List (RunEvent T V E)) : List (LaneEvent (T i) E) :=
  tr.filterMap (laneEvent i)

@[simp]
theorem laneEvent_self (i : Fin (n + 1)) (e : LaneEvent (T i) E) :
  laneEvent i (.lane i e : RunEvent T V E) = some e
  := dif_pos rfl

theorem laneEvent_eq_some {i : Fin (n + 1)} {e : RunEvent T V E} {f : LaneEvent (T i) E} :
  laneEvent i e = some f ↔ e = .lane i f
  := by
  constructor
  · intro h
    cases e with
    | lane j e =>
        rw [laneEvent] at h
        split at h
        · subst j
          obtain rfl := Option.some.inj h
          rfl
        · cases h
    | driver j out => cases h
    | driverEnd j => cases h
  · rintro rfl
    apply laneEvent_self

theorem mem_laneEvents {i : Fin (n + 1)} {tr : List (RunEvent T V E)} {e : LaneEvent (T i) E} :
  e ∈ laneEvents i tr ↔ .lane i e ∈ tr
  := by
  rw [laneEvents, List.mem_filterMap]
  constructor
  · rintro ⟨f, hf, he⟩
    obtain rfl := laneEvent_eq_some.mp he
    exact hf
  · intro h
    use .lane i e, h
    apply laneEvent_self

namespace RunState

@[simp]
theorem lanes_pollProxy (s : RunState T V E) (lanes : ∀ i, Lane (T i))
    (p : Poll (Option (Except E Unit))) :
  (s.pollProxy lanes p).lanes = lanes
  := rfl

@[simp]
theorem futures_pollProxy (s : RunState T V E) (lanes : ∀ i, Lane (T i))
    (p : Poll (Option (Except E Unit))) :
  (s.pollProxy lanes p).futures = s.futures
  := rfl

@[simp]
theorem aggregate_pollProxy (s : RunState T V E) (lanes : ∀ i, Lane (T i))
    (p : Poll (Option (Except E Unit))) :
  (s.pollProxy lanes p).aggregate = s.aggregate
  := rfl

/-- The application shows each of its lanes as a machine of its own. -/
theorem lane_simulation (i : Fin (n + 1)) :
  Machine.Simulation (machine T V E) (Lane.machine (T i) E) (fun s l => s.lanes i = l)
    (laneEvent i)
  := by
  constructor
  · rintro s _ e t rfl hs he
    cases step_of_machine hs with
    | lane j e l p _ hl =>
        have hj : i ≠ j := by
          rintro rfl
          rw [laneEvent_self] at he
          cases he
        apply Function.update_of_ne hj
    | _ => rfl
  · rintro s _ e t f rfl hs he
    obtain rfl := laneEvent_eq_some.mp he
    cases step_of_machine hs with
    | lane _ _ l p _ hl =>
        use l
        constructor
        · apply Lane.machine_step hl
        · apply Function.update_self

/-- Along a run of the application, a lane makes the run of its own events. -/
theorem lane_run {tr : List (RunEvent T V E)} {s : RunState T V E}
    (h : (machine T V E).run (setupPartial T V E) tr = some s) (i : Fin (n + 1)) :
  (Lane.machine (T i) E).run (Lane.makeProxyChannel (T i)) (laneEvents i tr) = some (s.lanes i)
  := by
  obtain ⟨l, hl, rfl⟩ := (lane_simulation i).run rfl h
  exact hl

/-- The invariant of a lane holds of every lane of a state reached. -/
theorem lane_inv {tr : List (RunEvent T V E)} {s : RunState T V E}
    (h : (machine T V E).run (setupPartial T V E) tr = some s) (i : Fin (n + 1)) :
  Lane.Inv (laneEvents i tr) (s.lanes i)
  := Lane.Inv.of_run (lane_run h i)

/-! ### The two loops -/

/-- The termination value of the first driver, when an event is that it exits with one. -/
def headValue : RunEvent T V E → Option (V 0)
  | .driver i out =>
      match headOrTail i out with
      | .ok v => v
      | .error _ => none
  | _ => none

@[simp]
theorem headValue_head (v : V 0) :
  headValue (.driver 0 (.ok v) : RunEvent T V E) = some v
  := rfl

@[simp]
theorem headValue_tail (i : Fin n) (v : V i.succ) :
  headValue (.driver i.succ (.ok v) : RunEvent T V E) = none
  := rfl

@[simp]
theorem headValue_error (i : Fin (n + 1)) (e : E) :
  headValue (.driver i (.error e) : RunEvent T V E) = none
  := by
  rw [headValue, headOrTail_error]

@[simp]
theorem headValue_driverEnd (i : Fin (n + 1)) :
  headValue (.driverEnd i : RunEvent T V E) = none
  := rfl

@[simp]
theorem headValue_lane (i : Fin (n + 1)) (e : LaneEvent (T i) E) :
  headValue (.lane i e : RunEvent T V E) = none
  := rfl

theorem headValue_eq_some {e : RunEvent T V E} {v : V 0} :
  headValue e = some v ↔ e = .driver 0 (.ok v)
  := by
  constructor
  · intro h
    cases e with
    | driver i out =>
        cases out with
        | error e =>
            rw [headValue_error] at h
            cases h
        | ok w =>
            cases i using Fin.cases with
            | zero =>
                obtain rfl := Option.some.inj h
                rfl
            | succ i => cases h
    | driverEnd i => cases h
    | lane i e => cases h
  · rintro rfl
    rfl

theorem mem_headValue {tr : List (RunEvent T V E)} {v : V 0} :
  v ∈ tr.filterMap headValue ↔ .driver 0 (.ok v) ∈ tr
  := by
  rw [List.mem_filterMap]
  constructor
  · rintro ⟨e, he, hv⟩
    obtain rfl := headValue_eq_some.mp hv
    exact he
  · intro h
    use .driver 0 (.ok v), h
    apply headValue_head

/-- The invariant of the application, at the state a trace leads to. -/
structure Inv (tr : List (RunEvent T V E)) (s : RunState T V E) : Prop where
  head : s.aggregate = .loop → s.futures 0 = .pending
  exited : ∀ v, s.aggregate = .ret (.ok v) ↔ v ∈ tr.filterMap headValue
  aggregate : s.aggregate ≠ .panic
  going : s.proxy = .loop → ∃ i, (s.lanes i).proxy ≠ .ended
  proxied : s.proxy = .ret (.ok ()) → ∀ i, (s.lanes i).proxy = .ended
  proxy : s.proxy ≠ .panic

theorem Inv.init :
  Inv [] (setupPartial T V E)
  := by
  constructor <;> simp [setupPartial, Lane.makeProxyChannel]

theorem outcome_eq_none {s : RunState T V E} :
  s.outcome = none ↔
    s.aggregate = .loop ∧ (s.proxy = .loop ∨ s.proxy = .ret (.ok ())) ∨
      (∃ v, s.aggregate = .ret (.ok v)) ∧ s.proxy = .loop
  := by
  obtain ⟨futures, lanes, aggregate, proxy⟩ := s
  rcases aggregate with _ | ⟨_ | _⟩ | _ <;> rcases proxy with _ | ⟨_ | _⟩ | _ <;>
    simp [outcome, tryJoin]

theorem isEnded_eq_true {T : Type u} {p : ProxyState T} :
  p.isEnded = true ↔ p = .ended
  := by
  cases p <;> simp [ProxyState.isEnded]

/-- What the loop of the proxy future does when the merged stream is polled. -/
theorem proxy_pollProxy {s : RunState T V E} (lanes : ∀ i, Lane (T i))
    (p : Poll (Option (Except E Unit))) :
  (s.pollProxy lanes p).proxy =
    match p with
    | .pending => s.proxy
    | .ready (some (.ok ())) => .loop
    | .ready (some (.error e)) => .ret (.error e)
    | .ready none => if ∀ j, (lanes j).proxy.isEnded then .ret (.ok ()) else s.proxy
  := by
  rcases p with _ | _ | _ | _
  · rfl
  · by_cases h : ∀ j, (lanes j).proxy.isEnded = true
    · simp [pollProxy, merge, Turn.poll, proxyLoop, h]
    · simp [pollProxy, merge, Turn.poll, h]
  · rfl
  · rfl

/-- The loop of the proxy future keeps to the loops over the sink streams. -/
theorem pollProxy_keeps {s : RunState T V E} {i : Fin (n + 1)} {e : LaneEvent (T i) E}
    {l : Lane (T i)} {p : Poll (Option (Except E Unit))} (hs : Lane.Step (s.lanes i) e l p)
    (going : s.proxy = .loop → ∃ i, (s.lanes i).proxy ≠ .ended)
    (proxied : s.proxy = .ret (.ok ()) → ∀ i, (s.lanes i).proxy = .ended)
    (proxy : s.proxy ≠ .panic) :
  let t := s.pollProxy (Function.update s.lanes i l) p
  (t.proxy = .loop → ∃ i, (t.lanes i).proxy ≠ .ended) ∧
    (t.proxy = .ret (.ok ()) → ∀ i, (t.lanes i).proxy = .ended) ∧ t.proxy ≠ .panic
  := by
  intro t
  have hp := hs.proxy_ended
  have hself : (t.lanes i).proxy = l.proxy := by simp [t]
  have hne : ∀ j, j ≠ i → (t.lanes j).proxy = (s.lanes j).proxy := by
    intro j hj
    simp [t, hj]
  have ht := proxy_pollProxy (s := s) (Function.update s.lanes i l) p
  rcases p with _ | _ | _ | _
  · have hends : ∀ j, (t.lanes j).proxy = .ended ↔ (s.lanes j).proxy = .ended := by
      intro j
      by_cases hj : j = i
      · subst hj
        rw [hself]
        apply hp
      · rw [hne j hj]
    simp only [ne_eq, hends]
    exact ⟨ht ▸ going, ht ▸ proxied, ht ▸ proxy⟩
  · by_cases hall : ∀ j, (t.lanes j).proxy.isEnded = true
    · have htr : t.proxy = .ret (.ok ()) := by
        apply Eq.trans ht
        apply if_pos hall
      rw [htr]
      refine ⟨nofun, ?_, nofun⟩
      intro _ j
      apply isEnded_eq_true.mp (hall j)
    · have htl : t.proxy = s.proxy := by
        apply Eq.trans ht
        apply if_neg hall
      simp only [isEnded_eq_true, not_forall] at hall
      rw [htl]
      refine ⟨fun _ => hall, ?_, proxy⟩
      intro h j
      by_cases hj : j = i
      · subst hj
        rw [hself]
        apply hp
      · rw [hne j hj]
        apply proxied h
  · rw [show t.proxy = _ from ht]
    exact ⟨nofun, nofun, nofun⟩
  · rw [show t.proxy = _ from ht]
    refine ⟨fun _ => ⟨i, ?_⟩, nofun, nofun⟩
    rw [hself]
    apply hp

/-- An event of the application keeps its invariant. -/
theorem Inv.step {tr : List (RunEvent T V E)} {s t : RunState T V E} {e : RunEvent T V E}
    (h : Inv tr s) (hs : Step s e t) :
  Inv (tr ++ [e]) t
  := by
  obtain ⟨head, exited, aggregate, going, proxied, proxy⟩ := h
  cases hs with
  | fail i e ho ha hf =>
      have hnot : ∀ v, v ∉ tr.filterMap headValue := by
        intro v hv
        rw [← exited v, ha] at hv
        cases hv
      constructor <;> simp_all
  | head v ho ha hf =>
      have hnot : ∀ v, v ∉ tr.filterMap headValue := by
        intro v hv
        rw [← exited v, ha] at hv
        cases hv
      constructor <;> simp_all [eq_comm]
  | tail i v ho ha hf =>
      constructor
      case head =>
        intro _
        apply (Function.update_of_ne (Fin.succ_ne_zero i).symm .yielded s.futures).trans (head ha)
      all_goals simp_all
  | driverEnd i ho ha hf =>
      have hi : 0 ≠ i := by
        rintro rfl
        rw [head ha] at hf
        cases hf
      have hzero : Function.update s.futures i .ended 0 = .pending := by
        rw [Function.update_of_ne hi]
        apply head ha
      have hall : ¬ ∀ j, Function.update s.futures i .ended j = .ended := by
        intro h
        rw [h 0] at hzero
        cases hzero
      rw [if_neg hall]
      constructor
      case head =>
        intro _
        exact hzero
      all_goals simp_all
  | lane i e l p ho hl =>
      obtain ⟨hgoing, hproxied, hproxy⟩ :=
        pollProxy_keeps (Lane.step_of_poll hl) going proxied proxy
      constructor
      case going => exact hgoing
      case proxied => exact hproxied
      case proxy => exact hproxy
      all_goals simp_all

/-- The invariant holds of every state the application reaches. -/
theorem Inv.of_run {tr : List (RunEvent T V E)} {s : RunState T V E}
    (h : (machine T V E).run (setupPartial T V E) tr = some s) :
  Inv tr s
  := by
  apply (machine T V E).run_induction (P := Inv) Inv.init _ tr s h
  intro tr s e t _ hs ht
  apply hs.step (step_of_machine ht)

end RunState

end Cyclers
