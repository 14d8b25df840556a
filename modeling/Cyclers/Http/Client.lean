import Cyclers.Http.Invariant

/-!
# The client of a request

All requests are executed with one client, the first to arrive at the source: it is repeated
for ever, and a client that is configured later is never used.  It is the client in force for a
request only when the request comes before all commands that configure the client, and the
default client is there first, or after just one of them, and its client is there first.
-/

open Async

namespace Cyclers

namespace Http

universe u

variable {B R P : Type u} {convertible : R → Bool}

namespace HttpState

/-- The requests that the sink has yielded are executed, in order, each with the client in
force. -/
def Served (s : HttpState B R P) : Prop :=
  s.executions = (requests s.sink).map fun use => (inForce use.1, use.2)

/-- A request is on time in a run: it comes before all commands that configure the client, and
the default client has been polled for; or it comes after one of them, and the default client
has not been polled for. -/
def OnTime (tr : List (HttpEvent B R P)) (use : ℕ × R) : Prop :=
  use.1 = 0 ∧ HttpEvent.pollDefaultClient ∈ tr ∨ use.1 = 1 ∧ HttpEvent.pollDefaultClient ∉ tr

/-- An event makes the default client only when it is polled for. -/
theorem Step.default_iff [DecidableEq B] {s t : HttpState B R P} {e : HttpEvent B R P}
    (h : Step convertible s e t) :
  t.default = true ↔ s.default = true ∨ HttpEvent.pollDefaultClient = e
  := by
  cases h <;> simp

/-- The default client is made in the runs that poll for it. -/
theorem default_iff [DecidableEq B] {tr : List (HttpEvent B R P)} {s : HttpState B R P}
    (h : (machine convertible).run (HttpState.init B R P) tr = some s) :
  s.default = true ↔ HttpEvent.pollDefaultClient ∈ tr
  := by
  apply (machine convertible).run_induction
    (P := fun tr s => s.default = true ↔ HttpEvent.pollDefaultClient ∈ tr) _ _ tr s h
  · simp [HttpState.init]
  · intro tr t e u _ ht hu
    rw [(step_of_machine hu).default_iff, ht, List.mem_append, List.mem_singleton]

/-- A request is on time when the client used is the one in force for it. -/
theorem onTime_iff [DecidableEq B] {tr : List (HttpEvent B R P)} {s : HttpState B R P}
    (h : (machine convertible).run (HttpState.init B R P) tr = some s) {use : ℕ × R} :
  OnTime tr use ↔ inForce (1 - s.default.toNat) = inForce use.1
  := by
  rw [OnTime, ← default_iff h, ← Nat.zero_add 1, inForce_eq]
  cases s.default <;> simp

/-- The executions are those of their requests, all with the first client to arrive. -/
theorem ClientInv.executions_eq {s : HttpState B R P} (h : ClientInv s) :
  s.executions = (s.executions.map Prod.snd).map fun r => (inForce (1 - s.default.toNat), r)
  := by
  rw [List.map_map]
  conv_lhs => rw [← List.map_id s.executions]
  apply List.map_congr_left
  intro p hp
  rw [id, Function.comp_apply, ← h.executions p hp]

/-- When all requests are on time, the first client to arrive is in force for each of them. -/
theorem map_inForce [DecidableEq B] {tr : List (HttpEvent B R P)} {s : HttpState B R P}
    (h : (machine convertible).run (HttpState.init B R P) tr = some s)
    (ht : ∀ use ∈ requests s.sink, OnTime tr use) :
  ((requests s.sink).map Prod.snd).map (fun r => (inForce (1 - s.default.toNat), r)) =
    (requests s.sink).map fun use => (inForce use.1, use.2)
  := by
  rw [List.map_map]
  apply List.map_congr_left
  intro use hu
  rw [Function.comp_apply, (onTime_iff h).mp (ht use hu)]

/-- When every request is executed with the client in force.  In every state reached in which
all requests are on time, the executions are the first of those that are due; and in every
quiescent state reached, the requests are all executed so exactly when each of them can be
converted and is on time. -/
theorem served_iff_onTime [DecidableEq B] {tr : List (HttpEvent B R P)} {s : HttpState B R P}
    (h : (machine convertible).run (HttpState.init B R P) tr = some s) :
  ((∀ use ∈ requests s.sink, OnTime tr use) →
      s.executions <+: (requests s.sink).map fun use => (inForce use.1, use.2)) ∧
    ((machine convertible).Quiescent internal s →
      (Served s ↔ ∀ use ∈ requests s.sink, convertible use.2 = true ∧ OnTime tr use))
  := by
  have hclients := ClientInv.of_run h
  have hresponses := ResponseInv.of_run h
  constructor
  · intro ht
    rw [hclients.executions_eq, ← map_inForce h ht]
    apply hresponses.executions_le.map
  · intro hq
    constructor
    · intro hs use hu
      have hmem : (inForce use.1, use.2) ∈ s.executions := by
        rw [hs]
        apply List.mem_map_of_mem hu
      constructor
      · apply hresponses.convertible _ hmem
      · rw [onTime_iff h]
        exact (hclients.executions _ hmem).symm
    · intro hu
      have hl : s.loop ≠ .panicked := by
        intro hl
        obtain ⟨use, hmem, hcv⟩ := hresponses.panicked hl
        rw [(hu use hmem).1] at hcv
        cases hcv
      obtain ⟨hrequest, hsent⟩ := requests_of_quiescent hclients hresponses hq hl
      rw [Served, hclients.executions_eq, hresponses.executions hrequest hsent]
      apply map_inForce h
      intro use hmem
      exact (hu use hmem).2

/-- Two clients are configured, each before a request: both requests are executed with the
first client. -/
theorem second_not_served :
  ∃ s, (machine fun _ => true).run (HttpState.init ℕ String Unit)
      [.sink (.configureClient 0), .sink (.sendRequest "a"), .sink (.configureClient 1),
        .sink (.sendRequest "b"), .configureClient (.ok ()), .reserveClient, .pollClient,
        .pollRequest, .zip, .configureClient (.ok ()), .reserveClient, .pollClient, .pollRequest,
        .zip] = some s ∧
    requests s.sink = [(1, "a"), (2, "b")] ∧ s.executions = [(some 0, "a"), (some 0, "b")] ∧
    ¬ Served s
  := by
  refine ⟨_, rfl, rfl, rfl, ?_⟩
  intro hs
  cases hs

/-- A client is configured before a request, which is executed with it. -/
theorem first_served :
  ∃ s, (machine fun _ => true).run (HttpState.init ℕ String Unit)
      [.sink (.configureClient 0), .sink (.sendRequest "a"), .configureClient (.ok ()),
        .reserveClient, .pollClient, .pollRequest, .zip, .pollClient] = some s ∧
    Served s
  := by
  have h : (machine fun _ => true).run (HttpState.init ℕ String Unit)
      [.sink (.configureClient 0), .sink (.sendRequest "a"), .configureClient (.ok ()),
        .reserveClient, .pollClient, .pollRequest, .zip, .pollClient] = some _ := rfl
  refine ⟨_, h, ((served_iff_onTime h).2 ?_).mpr ?_⟩
  · intro e he
    cases e with
    | sink command => cases he
    | sinkEnd => cases he
    | configureClient result => cases he
    | reserveClient => cases he
    | runEnd => cases he
    | execute k result => cases he
    | reserveResponse i => cases i <;> rfl
    | _ => rfl
  · intro use hu
    obtain rfl := List.mem_singleton.mp hu
    refine ⟨rfl, .inr ⟨rfl, ?_⟩⟩
    simp

end HttpState

end Http

end Cyclers
