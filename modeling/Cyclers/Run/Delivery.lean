import Cyclers.Run.Invariant

/-!
# Delivery through the proxy channels

Each driver receives the items of its own sink stream, in order and none of them twice; at
most two items are on their way to it at any moment; it sees the end of stream only when
there is nothing left to receive; and a driver that drops its receiver affects no other
driver.
-/

open Async

namespace Cyclers

universe u v w

variable {n : ℕ} {T : Fin (n + 1) → Type u} {V : Fin (n + 1) → Type v} {E : Type w}

/-- Whether an event of the application happens in the lane `i`. -/
def RunEvent.isLane (i : Fin (n + 1)) : RunEvent T V E → Bool
  | .lane j _ => decide (j = i)
  | _ => false

namespace RunState

/-- `Apart i s s'`: the states `s` and `s'` differ in the lane `i` only, as they do when
nothing more happens in the lane `i` of `s'`. -/
structure Apart (i : Fin (n + 1)) (s s' : RunState T V E) : Prop where
  inv : ∃ tr, Inv tr s
  futures : s'.futures = s.futures
  aggregate : s'.aggregate = s.aggregate
  lanes : ∀ j, j ≠ i → s'.lanes j = s.lanes j
  ended : (s'.lanes i).proxy = .ended → (s.lanes i).proxy = .ended
  proxy : s'.proxy = s.proxy ∨ s'.proxy = .loop

/-- While there is no outcome in one of two states apart, there is none in the other. -/
theorem Apart.outcome {i : Fin (n + 1)} {s s' : RunState T V E} (h : Apart i s s')
    (ho : s.outcome = none) :
  s'.outcome = none
  := by
  rcases h.proxy with hp | hp
  · rw [RunState.outcome, h.aggregate, hp]
    exact ho
  · rw [outcome_eq_none] at ho ⊢
    rw [h.aggregate, hp]
    rcases ho with ⟨ha, -⟩ | ⟨ha, -⟩
    · left
      exact ⟨ha, .inl rfl⟩
    · right
      exact ⟨ha, rfl⟩

/-- Nothing is unfolded over a sink stream whose loop has ended, so a lane yields nothing
once the proxy future has returned. -/
theorem pending_of_proxied {tr : List (RunEvent T V E)} {s : RunState T V E} (h : Inv tr s)
    (hp : s.proxy = .ret (.ok ())) {i : Fin (n + 1)} {e : LaneEvent (T i) E} {l : Lane (T i)}
    {p : Poll (Option (Except E Unit))} (hl : Lane.Step (s.lanes i) e l p) :
  p = .pending
  := by
  have hend : (s.lanes i).proxy = .ended := h.proxied hp i
  cases hl <;> simp_all

/-- The proxy future of a state without an outcome goes round or has returned. -/
theorem proxy_of_outcome {s : RunState T V E} (ho : s.outcome = none) :
  s.proxy = .loop ∨ s.proxy = .ret (.ok ())
  := by
  rcases outcome_eq_none.mp ho with ⟨-, hp⟩ | ⟨-, hp⟩
  · exact hp
  · exact .inl hp

/-- An event of the lane `i` of `s` keeps two states apart. -/
theorem Apart.stutter {i : Fin (n + 1)} {s s' : RunState T V E} (h : Apart i s s')
    {e : LaneEvent (T i) E} {l : Lane (T i)} {p : Poll (Option (Except E Unit))}
    (ho : s.outcome = none) (hl : (s.lanes i).poll e = some (l, p)) :
  Apart i (s.pollProxy (Function.update s.lanes i l) p) s'
  := by
  obtain ⟨tr, hinv⟩ := h.inv
  have hstep := Lane.step_of_poll hl
  constructor
  · use tr ++ [.lane i e]
    apply hinv.step (Step.lane i e l p ho hl)
  · exact h.futures
  · exact h.aggregate
  · intro j hj
    rw [lanes_pollProxy, Function.update_of_ne hj]
    apply h.lanes j hj
  · intro hs'
    rw [lanes_pollProxy, Function.update_self]
    have hend := h.ended hs'
    cases hstep <;> simp_all
  · rcases h.proxy with hp | hp
    · rcases proxy_of_outcome ho with hloop | hret
      · right
        rw [hp, hloop]
      · left
        obtain rfl := pending_of_proxied hinv hret hstep
        rw [proxy_pollProxy, hp]
    · exact .inr hp

/-- The proxy futures of two states apart stay so when the same event happens in a lane of
both. -/
theorem Apart.proxy_follow {i : Fin (n + 1)} {s s' : RunState T V E} (h : Apart i s s')
    {j : Fin (n + 1)} {e : LaneEvent (T j) E} {l : Lane (T j)}
    {p : Poll (Option (Except E Unit))} (hj : j ≠ i) (ho : s.outcome = none)
    (hl : Lane.Step (s.lanes j) e l p) :
  let t := s.pollProxy (Function.update s.lanes j l) p
  let t' := s'.pollProxy (Function.update s'.lanes j l) p
  t'.proxy = t.proxy ∨ t'.proxy = .loop
  := by
  intro t t'
  obtain ⟨tr, hinv⟩ := h.inv
  have ht := proxy_pollProxy (s := s) (Function.update s.lanes j l) p
  have ht' := proxy_pollProxy (s := s') (Function.update s'.lanes j l) p
  rcases p with _ | _ | _ | _
  · rw [show t.proxy = _ from ht, show t'.proxy = _ from ht']
    exact h.proxy
  · by_cases hall : ∀ k, (t'.lanes k).proxy.isEnded = true
    · have hall' : ∀ k, (t.lanes k).proxy.isEnded = true := by
        intro k
        have hk := hall k
        rw [isEnded_eq_true] at hk ⊢
        by_cases hki : k = i
        · subst hki
          simp only [t, t', lanes_pollProxy, Function.update_of_ne (Ne.symm hj)] at hk ⊢
          apply h.ended hk
        · by_cases hkj : k = j
          · subst hkj
            simpa only [t, t', lanes_pollProxy, Function.update_self] using hk
          · simp only [t, t', lanes_pollProxy, Function.update_of_ne hkj] at hk ⊢
            rw [← h.lanes k hki]
            exact hk
      left
      rw [show t.proxy = _ from ht.trans (if_pos hall'),
        show t'.proxy = _ from ht'.trans (if_pos hall)]
    · right
      rw [show t'.proxy = _ from ht'.trans (if_neg hall)]
      rcases h.proxy with hp | hp
      · rcases proxy_of_outcome ho with hloop | hret
        · rw [hp, hloop]
        · cases pending_of_proxied hinv hret hl
      · exact hp
  · left
    rw [show t.proxy = _ from ht, show t'.proxy = _ from ht']
  · left
    rw [show t.proxy = _ from ht, show t'.proxy = _ from ht']

/-- An event outside the lane `i` happens in both of two states apart, and keeps them
apart. -/
theorem Apart.follow {i : Fin (n + 1)} {s s' t : RunState T V E} {e : RunEvent T V E}
    (h : Apart i s s') (he : e.isLane i = false) (hs : Step s e t) :
  ∃ t', Step s' e t' ∧ Apart i t t'
  := by
  obtain ⟨tr, hinv⟩ := h.inv
  have hinv' := hinv.step hs
  cases hs with
  | fail j e ho ha hf =>
      refine ⟨_, Step.fail j e (h.outcome ho) ?_ ?_, ⟨_, hinv'⟩, ?_, rfl, h.lanes, h.ended, h.proxy⟩
      · rw [h.aggregate, ha]
      · rw [h.futures, hf]
      · rw [h.futures]
  | head v ho ha hf =>
      refine ⟨_, Step.head v (h.outcome ho) ?_ ?_, ⟨_, hinv'⟩, ?_, rfl, h.lanes, h.ended, h.proxy⟩
      · rw [h.aggregate, ha]
      · rw [h.futures, hf]
      · rw [h.futures]
  | tail j v ho ha hf =>
      refine ⟨_, Step.tail j v (h.outcome ho) ?_ ?_, ⟨_, hinv'⟩, ?_, h.aggregate, h.lanes, h.ended,
        h.proxy⟩
      · rw [h.aggregate, ha]
      · rw [h.futures, hf]
      · rw [h.futures]
  | driverEnd j ho ha hf =>
      refine ⟨_, Step.driverEnd j (h.outcome ho) ?_ ?_, ⟨_, hinv'⟩, ?_, ?_, h.lanes, h.ended,
        h.proxy⟩
      · rw [h.aggregate, ha]
      · rw [h.futures, hf]
      · rw [h.futures]
      · rw [h.futures]
  | lane j e l p ho hl =>
      have hj : j ≠ i := of_decide_eq_false he
      refine ⟨_, Step.lane j e l p (h.outcome ho) ?_, ⟨_, hinv'⟩, h.futures, h.aggregate, ?_, ?_,
        h.proxy_follow hj ho (Lane.step_of_poll hl)⟩
      · rw [h.lanes j hj, hl]
      · intro k hk
        by_cases hkj : k = j
        · subst hkj
          rw [lanes_pollProxy, lanes_pollProxy, Function.update_self, Function.update_self]
        · rw [lanes_pollProxy, lanes_pollProxy, Function.update_of_ne hkj,
            Function.update_of_ne hkj]
          apply h.lanes k hk
      · rw [lanes_pollProxy, lanes_pollProxy, Function.update_of_ne hj.symm,
          Function.update_of_ne hj.symm]
        exact h.ended

/-- The application without the events of the lane `i` follows the application. -/
theorem apart_simulation (i : Fin (n + 1)) :
  Machine.Simulation (machine T V E) (machine T V E) (Apart i)
    (Option.guard fun e => !e.isLane i)
  := by
  constructor
  · intro s s' e t h hs he
    have hi : e.isLane i = true := by simpa [Option.guard] using he
    cases step_of_machine hs with
    | lane j e l p ho hl =>
        obtain rfl : j = i := of_decide_eq_true hi
        apply h.stutter ho hl
    | _ => cases hi
  · intro s s' e t b h hs he
    obtain ⟨rfl, hi⟩ := Option.guard_eq_some_iff.mp he
    have hi : e.isLane i = false := by simpa using hi
    obtain ⟨t', ht', h'⟩ := h.follow hi (step_of_machine hs)
    use t', ht'.machine

/-- Whatever happens in the lane `i` after a state, the other lanes and the drivers could
have come to where they are without it. -/
theorem Apart.run_without_lane {s s' t : RunState T V E} {i : Fin (n + 1)} (h : Apart i s s')
    {tr : List (RunEvent T V E)} (hr : (machine T V E).run s tr = some t) :
  ∃ t', (machine T V E).run s' (tr.filter fun e => !e.isLane i) = some t' ∧
    ∀ j, j ≠ i → t'.lanes j = t.lanes j
  := by
  obtain ⟨t', ht', hA⟩ := (apart_simulation i).run h hr
  use t'
  rw [← List.filterMap_eq_filter]
  exact ⟨ht', hA.lanes⟩

/-- A state is apart from itself, and from itself with the receiver of a lane dropped. -/
theorem Apart.of_run {s : RunState T V E} {tr : List (RunEvent T V E)}
    (h : (machine T V E).run (setupPartial T V E) tr = some s) (i : Fin (n + 1)) :
  Apart i s s
  := ⟨⟨tr, Inv.of_run h⟩, rfl, rfl, fun _ _ => rfl, id, .inl rfl⟩

theorem Apart.of_drop {s t : RunState T V E} {tr : List (RunEvent T V E)}
    (h : (machine T V E).run (setupPartial T V E) tr = some s) {i : Fin (n + 1)}
    (ht : Step s (.lane i .dropReceiver) t) :
  Apart i s t
  := by
  cases ht with
  | lane _ _ l p ho hl =>
      cases Lane.step_of_poll hl with
      | drop hr =>
          refine ⟨⟨tr, Inv.of_run h⟩, rfl, rfl, ?_, ?_, .inl rfl⟩
          · intro j hj
            apply Function.update_of_ne hj
          · intro hend
            rw [lanes_pollProxy, Function.update_self] at hend
            exact hend

/-- Dropping the receiver of the lane `i` takes nothing from the other lanes: they could have
come to where they are had it not been dropped. -/
theorem lanes_without_drop {s : RunState T V E} {tr tr' : List (RunEvent T V E)}
    {i : Fin (n + 1)}
    (h : (machine T V E).run (setupPartial T V E) (tr ++ .lane i .dropReceiver :: tr') = some s) :
  ∃ t, (machine T V E).run (setupPartial T V E) (tr ++ tr'.filter fun e => !e.isLane i) = some t ∧
    ∀ j, j ≠ i → t.lanes j = s.lanes j
  := by
  obtain ⟨u, hu, hs⟩ := Machine.exists_of_run_append _ h
  obtain ⟨t, ht, hlanes⟩ := (Apart.of_run hu i).run_without_lane hs
  use t
  have hi : (RunEvent.lane i .dropReceiver : RunEvent T V E).isLane i = true := decide_eq_true rfl
  rw [List.filter_cons_of_neg (by simp [hi])] at ht
  rw [Machine.run_append, hu]
  exact ⟨ht, hlanes⟩

/-- Dropping the receiver of the lane `i` forbids nothing to the other lanes: wherever they
come to without it, they come to as well when it is dropped. -/
theorem lanes_with_drop {s u : RunState T V E} {tr tr' : List (RunEvent T V E)} {i : Fin (n + 1)}
    (h : (machine T V E).run (setupPartial T V E) (tr ++ tr') = some s)
    (hu : (machine T V E).run (setupPartial T V E) (tr ++ [.lane i .dropReceiver]) = some u) :
  ∃ t, (machine T V E).run (setupPartial T V E)
      (tr ++ .lane i .dropReceiver :: tr'.filter fun e => !e.isLane i) = some t ∧
    ∀ j, j ≠ i → t.lanes j = s.lanes j
  := by
  obtain ⟨v, hv, hs⟩ := Machine.exists_of_run_append _ h
  rw [Machine.run_concat, hv] at hu
  obtain ⟨t, ht, hlanes⟩ := (Apart.of_drop hv (step_of_machine hu)).run_without_lane hs
  use t
  rw [Machine.run_append, hv]
  refine ⟨?_, hlanes⟩
  rw [Option.bind_some, Machine.run_cons, show (machine T V E).step v _ = some u from hu]
  exact ht

end RunState

/-- At most two items are pulled from a sink stream and not yet received. -/
theorem Lane.Inv.length_le {α : Type u} {tr : List (LaneEvent α E)} {l : Lane α}
    (h : Lane.Inv tr l) :
  (Lane.okItems tr).length ≤ l.received.length + 2
  := by
  cases hr : l.channel.receiver with
  | true =>
      have hb : l.channel.queue.length ≤ 1 := l.channel.bounded
      have hheld : l.proxy.held.length ≤ 1 := by cases l.proxy <;> simp
      rw [h.alive hr, List.length_append, List.length_append]
      omega
  | false =>
      obtain ⟨lost, hl, hlen⟩ := h.dropped hr
      rw [hl, List.length_append]
      omega

/-- What is received is a prefix of what the sink stream has yielded. -/
theorem Lane.Inv.received_okItems {α : Type u} {tr : List (LaneEvent α E)} {l : Lane α}
    (h : Lane.Inv tr l) :
  l.received <+: Lane.okItems tr
  := by
  cases hr : l.channel.receiver with
  | true => exact ⟨_, (h.alive hr).symm⟩
  | false =>
      obtain ⟨lost, hl, -⟩ := h.dropped hr
      exact ⟨lost, hl.symm⟩

namespace RunState

/-- After the receiver of a lane is dropped, at most one more item is pulled from its sink
stream, and nothing more is received. -/
theorem pulled_after_drop {s : RunState T V E} {tr tr' : List (RunEvent T V E)} {i : Fin (n + 1)}
    (h : (machine T V E).run (setupPartial T V E) (tr ++ .lane i .dropReceiver :: tr') = some s) :
  (Lane.okItems (laneEvents i tr')).length ≤ 1 ∧
    ∃ u, (machine T V E).run (setupPartial T V E) tr = some u ∧
      (s.lanes i).received = (u.lanes i).received
  := by
  obtain ⟨u, hu, hs⟩ := Machine.exists_of_run_append _ h
  obtain ⟨v, hv, hs⟩ := Machine.exists_of_run_cons _ hs
  obtain ⟨l, hl, rfl⟩ := (lane_simulation i).run rfl hs
  cases step_of_machine hv with
  | lane _ _ l p ho hp =>
      cases Lane.step_of_poll hp with
      | drop hr =>
          obtain ⟨hrec, hdue⟩ := Lane.pulled_of_dropped (by simp) hl
          constructor
          · have hle : ∀ q : ProxyState (T i), q.due ≤ 1 := by
              intro q
              cases q <;> simp
            apply Nat.le_trans (Nat.le_of_add_right_le hdue) (hle _)
          · use u, hu
            simpa using hrec

/-- Delivery through the proxy channels.  In every state reached, for every driver: what it
has received is a prefix of what its own sink stream has yielded; while its receiver is
alive, what is missing is in the channel or held by the loop over the sink stream; at most
two items are missing; the receiver has reported the end of stream only if the sink stream
has ended and all its items are received; and dropping the receiver, after which at most one
more item is pulled and none received, neither takes anything from another driver nor keeps
anything from it. -/
theorem delivery {tr : List (RunEvent T V E)} {s : RunState T V E}
    (h : (machine T V E).run (setupPartial T V E) tr = some s) (i : Fin (n + 1)) :
  (s.lanes i).received <+: Lane.okItems (laneEvents i tr) ∧
    ((s.lanes i).channel.receiver = true →
      Lane.okItems (laneEvents i tr) =
        (s.lanes i).received ++ ((s.lanes i).channel.queue ++ (s.lanes i).proxy.held)) ∧
    (Lane.okItems (laneEvents i tr)).length ≤ (s.lanes i).received.length + 2 ∧
    ((s.lanes i).eos = true →
      .lane i (.sink none) ∈ tr ∧ (s.lanes i).received = Lane.okItems (laneEvents i tr)) ∧
    (∀ tr₁ tr₂, tr = tr₁ ++ .lane i .dropReceiver :: tr₂ →
      ((Lane.okItems (laneEvents i tr₂)).length ≤ 1 ∧
        ∃ u, (machine T V E).run (setupPartial T V E) tr₁ = some u ∧
          (s.lanes i).received = (u.lanes i).received) ∧
      ∃ t, (machine T V E).run (setupPartial T V E)
          (tr₁ ++ tr₂.filter fun e => !e.isLane i) = some t ∧
        ∀ j, j ≠ i → t.lanes j = s.lanes j) ∧
    (∀ tr₁ tr₂ u, tr = tr₁ ++ tr₂ →
      (machine T V E).run (setupPartial T V E) (tr₁ ++ [.lane i .dropReceiver]) = some u →
      ∃ t, (machine T V E).run (setupPartial T V E)
          (tr₁ ++ .lane i .dropReceiver :: tr₂.filter fun e => !e.isLane i) = some t ∧
        ∀ j, j ≠ i → t.lanes j = s.lanes j)
  := by
  have hinv := lane_inv h i
  refine ⟨hinv.received_okItems, hinv.alive, hinv.length_le, ?_, ?_, ?_⟩
  · intro heos
    obtain ⟨hend, -, -, hitems⟩ := hinv.eos heos
    exact ⟨mem_laneEvents.mp hend, hitems.symm⟩
  · rintro tr₁ tr₂ rfl
    exact ⟨pulled_after_drop h, lanes_without_drop h⟩
  · rintro tr₁ tr₂ u rfl hu
    exact lanes_with_drop h hu

/-- The first of two drivers receives an item, and drops its receiver before the next one,
while the second driver receives its own item. -/
theorem delivery_two :
  ∃ s, (machine (fun _ : Fin 2 => ℕ) (fun _ => Unit) String).run (setupPartial _ _ _)
      [.lane 0 (.sink (some (.ok 1))), .lane 0 .reserve, .lane 0 .recv,
        .lane 1 (.sink (some (.ok 2))), .lane 0 .dropReceiver, .lane 0 (.sink (some (.ok 3))),
        .lane 1 .reserve, .lane 0 .reserve, .lane 1 .recv] = some s ∧
    (s.lanes 0).received = [1] ∧ (s.lanes 1).received = [2] ∧
    (s.lanes 0).received <+: Lane.okItems (laneEvents 0
      ([.lane 0 (.sink (some (.ok 1))), .lane 0 .reserve, .lane 0 .recv,
        .lane 1 (.sink (some (.ok 2))), .lane 0 .dropReceiver, .lane 0 (.sink (some (.ok 3))),
        .lane 1 .reserve, .lane 0 .reserve, .lane 1 .recv] :
        List (RunEvent (fun _ : Fin 2 => ℕ) (fun _ => Unit) String)))
  := ⟨_, rfl, rfl, rfl, (delivery rfl 0).1⟩

end RunState

end Cyclers
