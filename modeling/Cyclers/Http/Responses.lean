import Cyclers.Http.Invariant

/-!
# The responses

When all requests can be converted, each of them is executed once, each execution gives one
item, and the stream ends after all of them.  A request that takes long holds back nothing: in
a quiescent state the items yielded are the outcomes of the executions that have ended, whatever
executions have not.
-/

open Async

namespace Cyclers

namespace Http

universe u

variable {B R P : Type u} {convertible : R → Bool}

namespace HttpState

/-- The requests that the sink has yielded are all executed, in order, and the items yielded are
the outcomes of the executions that have ended. -/
structure Answered (s : HttpState B R P) : Prop where
  executions : s.executions.map Prod.snd = (requests s.sink).map Prod.snd
  yielded : s.yielded.Perm s.outcomes

/-- What is left to do for `responses` when nothing else happens: requests are taken and paired
with a client, the loop ends, responses are sent and yielded, and the stream ends. -/
def work (s : HttpState B R P) : ℕ :=
  3 * ((requests s.sink).length - s.sent) + 2 * s.request.toList.length +
    (1 - s.client.toList.length) + (if s.loop = .running then 1 else 0) +
    (2 * s.reserving.length + s.channel.queue.length) +
    match s.once with
    | .pending => 2
    | .yielded => 1
    | .ended => 0

/-- An event of `responses` leaves less to do. -/
theorem Step.work_lt [DecidableEq B] {s t : HttpState B R P} {e : HttpEvent B R P}
    (h : Step convertible s e t) (he : internal e) :
  work t < work s
  := by
  cases h with
  | repeatClient client hl hc hr => simp [work, hc]
  | recvClient client clients hl hc hr hcl => simp [work, hc]
  | defaultClient clients hl hc hh hd hq hcl => simp [work, hc]
  | defaultClosed hc hr => simp [work, hc]
  | pollRequest c request hl hr hq =>
      have hlt := (List.getElem?_eq_some_iff.mp hq).1
      simp only [work, hr, Option.toList_some, Option.toList_none, List.length_singleton,
        List.length_nil]
      omega
  | zip client request hl hc hr hcv => simp [work, hl, hc, hr]
  | zipPanicked client request hl hc hr hcv => simp [work, hl]
  | clientsEnd hl hc he => simp [work, hl]
  | requestsEnd hl hr he hs => simp [work, hl]
  | sendResponse i response channel hl hr hc =>
      obtain ⟨hi, -⟩ := List.getElem?_eq_some_iff.mp hr
      obtain ⟨-, -, hq, -⟩ := Mpsc.reserve_eq_some.mp hc
      simp only [work, hq, List.length_eraseIdx_of_lt hi, List.length_append, List.length_singleton]
      omega
  | responseClosed i response hr hc =>
      obtain ⟨hi, -⟩ := List.getElem?_eq_some_iff.mp hr
      simp only [work, List.length_eraseIdx_of_lt hi]
      omega
  | loopEnd hl he hr ho => simp [work, ho]
  | yieldResponse response channel hl ho hc =>
      obtain ⟨hq, -⟩ := Mpsc.recv_eq_some.mp hc
      simp only [work, hq, List.length_cons]
      omega
  | responsesEnd hl ho => simp [work, ho]
  | _ => cases he

/-- From every state, the events of `responses` lead to a quiescent state, along which the channel
is prompt: while a response is in it, it can be yielded. -/
theorem exists_quiescent [DecidableEq B] (s : HttpState B R P) :
  ∃ tr t, (∀ e ∈ tr, internal e) ∧ (machine convertible).Along Prompt s tr ∧
    (machine convertible).run s tr = some t ∧ (machine convertible).Quiescent internal t
  := by
  obtain ⟨tr, t, htr, ha, ht, hq⟩ := (machine convertible).exists_quiescent_along Prompt work
    (fun s e t he hs => (step_of_machine hs).work_lt he) s
  refine ⟨tr, t, htr, ha, ht, ?_⟩
  intro e he
  cases e with
  | responsesEnd =>
      by_cases hqueue : t.channel.queue = []
      · apply hq .responsesEnd trivial hqueue
      · obtain ⟨response, q, hresponse⟩ := List.exists_cons_of_ne_nil hqueue
        obtain ⟨channel, hc⟩ := Mpsc.exists_recv hresponse
        have hyield : t.step convertible .yieldResponse = none := hq .yieldResponse trivial trivial
        change t.step convertible .responsesEnd = none
        cases hl : t.loop with
        | panicked => simp [step, hl]
        | _ =>
            cases ho : t.once with
            | yielded => simp [step, hl, ho, hc] at hyield
            | _ => simp [step, hl, ho]
  | _ => exact hq _ he trivial

/-- The loop panics only on a request that cannot be converted. -/
theorem ResponseInv.not_panicked {s : HttpState B R P} (h : ResponseInv convertible s)
    (hc : ∀ use ∈ Http.requests s.sink, convertible use.2 = true) :
  s.loop ≠ .panicked
  := by
  intro hl
  obtain ⟨use, hmem, hcv⟩ := h.panicked hl
  rw [hc use hmem] at hcv
  cases hcv

/-- The items yielded are outcomes, each yielded once. -/
theorem ResponseInv.subperm {s : HttpState B R P} (h : ResponseInv convertible s) :
  s.yielded.Subperm s.outcomes
  := by
  apply List.Subperm.trans _ h.outcomes.subperm
  apply (List.sublist_append_left _ _).subperm

/-- In a quiescent state the requests are answered. -/
theorem answered_of_quiescent [DecidableEq B] {s : HttpState B R P} (hclients : ClientInv s)
    (h : ResponseInv convertible s) (hdelivered : Delivered s) (hl : s.loop ≠ .panicked)
    (hq : (machine convertible).Quiescent internal s) :
  Answered s
  := by
  obtain ⟨hrequest, hsent⟩ := requests_of_quiescent hclients h hq hl
  have houtcomes := h.outcomes
  have hqueue : s.channel.queue = [] := by
    by_cases ho : s.once = .ended
    · apply hdelivered ho
    · apply queue_of_quiescent hclients h hq hl ho
  rw [hqueue, reserving_of_quiescent hclients h hq hl, List.append_nil, List.append_nil] at houtcomes
  exact ⟨h.executions hrequest hsent, houtcomes⟩

/-- When the stream has ended, so has the sink, no execution is left, and the requests are
answered. -/
theorem ResponseInv.answered_of_ended {s : HttpState B R P} (h : ResponseInv convertible s)
    (hdelivered : Delivered s) (ho : s.once = .ended) :
  s.sinkEnded = true ∧ s.executing = [] ∧ Answered s
  := by
  have hne : s.once ≠ .pending := by
    rw [ho]
    exact nofun
  obtain ⟨hl, hexecuting, hreserving⟩ := h.once hne
  obtain ⟨hended, hrequest, hsent⟩ := h.flushing hl
  have houtcomes := h.outcomes
  rw [hdelivered ho, hreserving, List.append_nil, List.append_nil] at houtcomes
  exact ⟨hended, hexecuting, h.executions hrequest hsent, houtcomes⟩

/-- In a quiescent state in which the sink has ended and no execution is left, the stream has
ended. -/
theorem ended_of_quiescent [DecidableEq B] {s : HttpState B R P} (hclients : ClientInv s)
    (h : ResponseInv convertible s) (hl : s.loop ≠ .panicked)
    (hq : (machine convertible).Quiescent internal s) (hended : s.sinkEnded = true)
    (hexecuting : s.executing = []) :
  s.once = .ended
  := by
  obtain ⟨hrequest, hsent⟩ := requests_of_quiescent hclients h hq hl
  have hflushing : s.loop = .flushing := by
    cases hloop : s.loop with
    | flushing => rfl
    | panicked => cases hl hloop
    | running =>
        cases not_internal hclients h hq (Step.requestsEnd hloop hrequest hended hsent) trivial
  have hreserving := reserving_of_quiescent hclients h hq hl
  cases ho : s.once with
  | ended => rfl
  | pending =>
      cases not_internal hclients h hq (Step.loopEnd hflushing hexecuting hreserving ho) trivial
  | yielded => cases not_internal hclients h hq (Step.responsesEnd hl ho) trivial

/-- One response for each request, when all requests can be converted.  In every state reached, the
first requests of the sink are executed, in order; each execution either has not ended or has one
outcome; and the items yielded are outcomes, each yielded once.  The events of `responses` lead to a
quiescent state, also when the channel of the responses is prompt.  When it has been, all requests
are executed in every quiescent state, and the items yielded are all the outcomes; and the stream
has ended only when the sink has, no execution is left, and the items yielded are all the outcomes.
The stream has ended in every quiescent state in which the sink has ended and no execution is
left. -/
theorem one_response [DecidableEq B] {tr : List (HttpEvent B R P)} {s : HttpState B R P}
    (h : (machine convertible).run (HttpState.init B R P) tr = some s)
    (hc : ∀ use ∈ Http.requests s.sink, convertible use.2 = true) :
  s.executions.map Prod.snd <+: (requests s.sink).map Prod.snd ∧
    (s.executing ++ s.outcomes.map Prod.fst).Perm (List.range s.executions.length) ∧
    s.yielded.Subperm s.outcomes ∧
    (∃ tr' t, (∀ e ∈ tr', internal e) ∧ (machine convertible).Along Prompt s tr' ∧
      (machine convertible).run s tr' = some t ∧ (machine convertible).Quiescent internal t) ∧
    ((machine convertible).Along Prompt (HttpState.init B R P) tr →
      ((machine convertible).Quiescent internal s → Answered s) ∧
      (s.once = .ended → s.sinkEnded = true ∧ s.executing = [] ∧ Answered s)) ∧
    ((machine convertible).Quiescent internal s → s.sinkEnded = true → s.executing = [] →
      s.once = .ended)
  := by
  have hclients := ClientInv.of_run h
  have hinv := ResponseInv.of_run h
  have hl := hinv.not_panicked hc
  refine ⟨hinv.executions_le, hinv.executing, hinv.subperm, exists_quiescent s, ?_, ?_⟩
  · intro ha
    have hdelivered := Delivered.of_run h ha
    exact ⟨answered_of_quiescent hclients hinv hdelivered hl, hinv.answered_of_ended hdelivered⟩
  · apply ended_of_quiescent hclients hinv hl

/-- Two requests are executed, and the execution of the first one ends last. -/
theorem one_response_two :
  ∃ s, (machine fun _ => true).run (HttpState.init ℕ String String)
      ([.sink (.sendRequest "a"), .sink (.sendRequest "b"), .sinkEnd, .pollDefaultClient,
        .pollRequest, .zip, .pollClient, .pollRequest, .zip, .execute 1 (.ok "foo"),
        .reserveResponse 0, .execute 0 (.error "timeout"), .yieldResponse, .reserveResponse 0,
        .zipEnd, .loopEnd, .yieldResponse] ++ [.responsesEnd]) = some s ∧
    s.yielded = [(1, .ok "foo"), (0, .error "timeout")] ∧ s.yielded.Perm s.outcomes ∧
    s.executions.map Prod.snd = ["a", "b"]
  := by
  have h : (machine fun _ => true).run (HttpState.init ℕ String String)
      ([.sink (.sendRequest "a"), .sink (.sendRequest "b"), .sinkEnd, .pollDefaultClient,
        .pollRequest, .zip, .pollClient, .pollRequest, .zip, .execute 1 (.ok "foo"),
        .reserveResponse 0, .execute 0 (.error "timeout"), .yieldResponse, .reserveResponse 0,
        .zipEnd, .loopEnd, .yieldResponse] ++ [.responsesEnd]) = some _ := rfl
  have hone := one_response h fun _ _ => rfl
  have hprompt := hone.2.2.2.2.1 ?_
  · obtain ⟨-, -, hanswered⟩ := hprompt.2 rfl
    exact ⟨_, h, rfl, hanswered.yielded, hanswered.executions⟩
  · apply (machine fun _ => true).along_append.mpr
    refine ⟨(machine fun _ => true).along_of_forall (by simp [Prompt]) _, ?_⟩
    rintro t ⟨⟩
    exact ⟨rfl, fun _ _ => trivial⟩

end HttpState

end Http

end Cyclers
