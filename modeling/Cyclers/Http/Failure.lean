import Cyclers.Http.Panics
import Cyclers.Http.Responses

/-!
# Builders that fail

The run loop takes the builders one after another, and returns at the first one that fails.  The
clients that were built before that have been sent to the source, or await a permit, and `responses`
goes on with them.
-/

open Async

namespace Cyclers

namespace Http

universe u

variable {B R P : Type u} {convertible : R → Bool}

/-- What the builder gives that is taken by an event. -/
def HttpEvent.result : HttpEvent B R P → Option (Except BoxError Unit)
  | .configureClient result => some result
  | _ => none

/-- What the builders give that are taken in a run. -/
def results (tr : List (HttpEvent B R P)) : List (Except BoxError Unit) :=
  tr.filterMap HttpEvent.result

/-- The result of the builder that has ended the run loop. -/
def RunLoop.failure : RunLoop → List (Except BoxError Unit)
  | .returned (.error err) => [.error err.inner]
  | _ => []

theorem results_concat (tr : List (HttpEvent B R P)) (e : HttpEvent B R P) :
  results (tr ++ [e]) = results tr ++ e.result.toList
  := by
  rw [results, results, List.filterMap_append, List.filterMap_cons, List.filterMap_nil]
  cases e.result <;> rfl

namespace HttpState

/-- The invariant of the builders taken, when none is given twice.  They are the first ones of the
sink, in order; all of them have given a client but the last one, if the run loop has failed; and
the loop has returned without an error only when all are taken. -/
structure BuildersInv (tr : List (HttpEvent B R P)) (s : HttpState B R P) : Prop where
  le : (results tr).length ≤ (builders s.sink).length
  taken : s.taken.reverse = (builders s.sink).take (Http.results tr).length
  results : Http.results tr = List.replicate s.configured (.ok ()) ++ s.run.failure
  panicked : s.run ≠ .panicked
  returned : s.run = .returned (.ok ()) →
    s.sinkEnded = true ∧ s.configured = (builders s.sink).length

theorem BuildersInv.init :
  BuildersInv [] (init B R P)
  := by
  constructor <;> simp [HttpState.init, Http.results, RunLoop.failure]

/-- As long as the run loop goes on, each builder taken has given a client. -/
theorem BuildersInv.length_results {tr : List (HttpEvent B R P)} {s : HttpState B R P}
    (h : BuildersInv tr s) (hr : s.run.failure = []) :
  (Http.results tr).length = s.configured
  := by
  rw [h.results, hr, List.append_nil, List.length_replicate]

/-- A builder that is taken comes after those taken before. -/
theorem BuildersInv.take {tr : List (HttpEvent B R P)} {s : HttpState B R P}
    (h : BuildersInv tr s) (hr : s.run.failure = []) {builder : B}
    (hget : (builders s.sink)[s.configured]? = some builder) (result : Except BoxError Unit) :
  (Http.results (tr ++ [.configureClient result])).length ≤ (builders s.sink).length ∧
    (builder :: s.taken).reverse =
      (builders s.sink).take (Http.results (tr ++ [.configureClient result])).length
  := by
  have hlen := h.length_results hr
  have hlen' : (Http.results (tr ++ [.configureClient result])).length = s.configured + 1 := by
    rw [results_concat, List.length_append, hlen]
    rfl
  rw [hlen', List.reverse_cons, h.taken, hlen, List.take_add_one, hget, Option.toList_some]
  exact ⟨(List.getElem?_eq_some_iff.mp hget).1, rfl⟩

/-- An event that takes no builder leaves the invariant, if the run loop has not ended by it. -/
theorem BuildersInv.congr {tr : List (HttpEvent B R P)} {s t : HttpState B R P}
    {e : HttpEvent B R P} (h : BuildersInv tr s) (he : e.result = none) (ht : t.taken = s.taken)
    (hc : t.configured = s.configured) (hs : builders t.sink = builders s.sink)
    (hf : t.run.failure = s.run.failure) (hp : t.run ≠ .panicked)
    (hr : t.run = .returned (.ok ()) →
      t.sinkEnded = true ∧ t.configured = (builders t.sink).length) :
  BuildersInv (tr ++ [e]) t
  := by
  have hresults : Http.results (tr ++ [e]) = Http.results tr := by
    rw [results_concat, he]
    apply List.append_nil
  refine ⟨?_, ?_, ?_, hp, hr⟩
  · rw [hresults, hs]
    exact h.le
  · rw [hresults, ht, hs]
    exact h.taken
  · rw [hresults, hc, hf]
    exact h.results

/-- An event keeps the invariant of the builders taken. -/
theorem BuildersInv.step [DecidableEq B] {tr : List (HttpEvent B R P)} {s t : HttpState B R P}
    {e : HttpEvent B R P} (h : BuildersInv tr s) (hclients : ClientInv s)
    (hn : (builders s.sink).Nodup) (hs : Step convertible s e t) :
  BuildersInv (tr ++ [e]) t
  := by
  cases hs with
  | sink command he =>
      obtain ⟨l, hl⟩ := builders_append s.sink command
      have hresults : Http.results (tr ++ [.sink command]) = Http.results tr := by
        rw [results_concat]
        apply List.append_nil
      refine ⟨?_, ?_, ?_, h.panicked, ?_⟩
      · rw [hresults, hl, List.length_append]
        apply Nat.le_add_right_of_le h.le
      · rw [hresults, hl, List.take_append_of_le_length h.le]
        exact h.taken
      · rw [hresults]
        exact h.results
      · intro hr
        rw [(h.returned hr).1] at he
        cases he
  | sinkEnd =>
      exact h.congr rfl rfl rfl rfl rfl h.panicked fun hr => ⟨rfl, (h.returned hr).2⟩
  | builderTaken builder result hr hget ht =>
      have hlen := h.length_results (by simp [hr, RunLoop.failure])
      have hmem : builder ∈ (builders s.sink).take s.configured := by
        rw [← hlen, ← h.taken]
        apply List.mem_reverse.mpr ht
      have hlt := (List.getElem?_eq_some_iff.mp hget).1
      have hdup := not_nodup_take hmem hget hlt
      rw [List.take_length] at hdup
      cases hdup hn
  | built builder hr hget ht =>
      have hf : s.run.failure = [] := by simp [hr, RunLoop.failure]
      obtain ⟨hle, htake⟩ := h.take hf hget (.ok ())
      refine ⟨hle, htake, ?_, by simp, by simp⟩
      rw [results_concat, h.results, hf, List.append_nil]
      change _ = List.replicate (s.configured + 1) _ ++ []
      rw [List.append_nil, List.replicate_succ']
      rfl
  | buildFailed builder err hr hget ht =>
      have hf : s.run.failure = [] := by simp [hr, RunLoop.failure]
      obtain ⟨hle, htake⟩ := h.take hf hget (.error err)
      refine ⟨hle, htake, ?_, by simp, by simp⟩
      rw [results_concat, h.results, hf, List.append_nil]
      rfl
  | sendClient client clients hr hc =>
      exact h.congr rfl rfl rfl rfl (by simp [hr, RunLoop.failure]) (by simp) (by simp)
  | clientClosed client hr hc =>
      rw [hclients.receiver] at hc
      cases hc
  | runEnd hr he hc =>
      exact h.congr rfl rfl rfl rfl (by simp [hr, RunLoop.failure]) (by simp) fun _ => ⟨he, hc⟩
  | _ => exact h.congr rfl rfl rfl rfl rfl h.panicked h.returned

/-- The invariant of the builders taken holds of every state reached, when no builder is given
twice. -/
theorem BuildersInv.of_run [DecidableEq B] {tr : List (HttpEvent B R P)} {s : HttpState B R P}
    (h : (machine convertible).run (HttpState.init B R P) tr = some s)
    (hn : (builders s.sink).Nodup) :
  BuildersInv tr s
  := by
  revert hn
  apply (machine convertible).run_induction
    (P := fun tr s => (builders s.sink).Nodup → BuildersInv tr s) _ _ tr s h
  · intro _
    exact BuildersInv.init
  · intro tr s e t hr hs ht hn
    have hstep := step_of_machine ht
    have hsink : builders s.sink <+: builders t.sink := by
      cases hstep with
      | sink command he =>
          obtain ⟨l, hl⟩ := builders_append s.sink command
          exact ⟨l, hl.symm⟩
      | _ => exact List.prefix_rfl
    have hnodup := hsink.sublist.nodup hn
    exact (hs hnodup).step (ClientInv.of_run hr) hnodup hstep

/-- How the driver fails.  Whatever the builders give, when no builder is given twice, the run loop
takes them in the order of the sink and does not panic.  It fails with the error of the first one
that gives an error, exactly when there is one; it takes no builder after that.  When it returns
without an error, the sink has ended and every builder has given a client.  The clients that have
been built are with `responses`, in the channel, or await a permit, in their order, the default one
before them; and whether the driver has failed or not, all requests are answered in a quiescent
state, if they can be converted and the channel of the responses has been prompt. -/
theorem fails_with_first [DecidableEq B] {tr : List (HttpEvent B R P)} {s : HttpState B R P}
    (h : (machine convertible).run (HttpState.init B R P) tr = some s)
    (hn : (builders s.sink).Nodup) :
  s.run ≠ .panicked ∧
    s.taken.reverse = (builders s.sink).take (Http.results tr).length ∧
    Http.results tr = List.replicate s.configured (.ok ()) ++ s.run.failure ∧
    (s.run = .returned (.ok ()) → s.sinkEnded = true ∧
      (Http.results tr).length = (builders s.sink).length) ∧
    s.repeated.toList ++ (s.clients.queue ++ s.run.reserved) =
      clientsMade s.default s.configured ∧
    ((∀ use ∈ Http.requests s.sink, convertible use.2 = true) →
      (machine convertible).Along Prompt (HttpState.init B R P) tr →
      (machine convertible).Quiescent internal s → Answered s)
  := by
  have hbuilders := BuildersInv.of_run h hn
  have hclients := ClientInv.of_run h
  have hresponses := ResponseInv.of_run h
  refine ⟨hbuilders.panicked, hbuilders.taken, hbuilders.results, ?_, hclients.made, ?_⟩
  · intro hr
    obtain ⟨hended, hall⟩ := hbuilders.returned hr
    refine ⟨hended, ?_⟩
    rw [hbuilders.length_results (by simp [hr, RunLoop.failure]), hall]
  · intro hc ha hq
    apply answered_of_quiescent hclients hresponses (Delivered.of_run h ha)
      (hresponses.not_panicked hc) hq

/-- The second of three builders fails.  The request is executed with the client of the first
one. -/
theorem fails_with_second :
  ∃ s, (machine fun _ => true).run (HttpState.init ℕ String String)
      [.sink (.configureClient 0), .sink (.configureClient 1), .sink (.configureClient 2),
        .configureClient (.ok ()), .reserveClient, .configureClient (.error "no backend"),
        .sink (.sendRequest "a"), .pollClient, .pollRequest, .zip, .execute 0 (.ok "foo"),
        .reserveResponse 0, .yieldResponse, .pollClient] = some s ∧
    s.run = .returned (.error ⟨.builder, "no backend"⟩) ∧
    s.taken.reverse = (builders s.sink).take 2 ∧ Answered s
  := by
  refine ⟨_, rfl, rfl, ?_⟩
  have hrest := @fails_with_first ℕ String String (fun _ => true) _
    [.sink (.configureClient 0), .sink (.configureClient 1), .sink (.configureClient 2),
      .configureClient (.ok ()), .reserveClient, .configureClient (.error "no backend"),
      .sink (.sendRequest "a"), .pollClient, .pollRequest, .zip, .execute 0 (.ok "foo"),
      .reserveResponse 0, .yieldResponse, .pollClient] _ rfl (by decide)
  refine ⟨hrest.2.1, hrest.2.2.2.2.2 (fun _ _ => rfl) ?_ ?_⟩
  · apply (machine fun _ => true).along_of_forall
    simp [Prompt]
  intro e he
  cases e with
  | sink command => cases he
  | sinkEnd => cases he
  | execute k result => cases he
  | configureClient result => cases he
  | reserveClient => cases he
  | runEnd => cases he
  | reserveResponse i => rfl
  | _ => rfl

end HttpState

end Http

end Cyclers
