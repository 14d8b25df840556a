import Mathlib.Data.List.Nodup
import Cyclers.Http.Invariant

/-!
# The end of the driver

The run loop sends each client that it builds through a channel that holds one.  Nothing takes a
client out of the channel but `responses`, which takes one only and repeats it for ever, and the
default client passes through the same channel.  So when its sink has ended the driver returns
only if the clients that have been made are few enough: one of them is with `responses`, if it
has taken any, and one is left in the channel.
-/

open Async

namespace Cyclers

namespace Http

universe u

variable {B R P : Type u} {convertible : R → Bool}

namespace HttpState

/-- The events that need nothing but the driver, and `responses` when it is polled. -/
def awake (polled : Bool) : HttpEvent B R P → Prop
  | .configureClient _ => True
  | .reserveClient => True
  | .runEnd => True
  | e => polled = true ∧ internal e

/-- A builder, when its command is handled, gives a client. -/
def Builds (_ : HttpState B R P) : HttpEvent B R P → Prop
  | .configureClient result => result = .ok ()
  | _ => True

/-- The invariant of the run loop, when every builder gives a client.  The builders taken are the
first ones of the sink; the loop panics only on a builder that is given twice, and returns only
at the end of the sink. -/
structure RunInv (s : HttpState B R P) : Prop where
  configured : s.configured ≤ (builders s.sink).length
  taken : ∀ builder ∈ s.taken, builder ∈ (builders s.sink).take s.configured
  panicked : (builders s.sink).Nodup → s.run ≠ .panicked
  returned : ∀ result, s.run = .returned result →
    result = .ok () ∧ s.sinkEnded = true ∧ s.configured = (builders s.sink).length

theorem RunInv.init :
  RunInv (init B R P)
  := by
  constructor <;> simp [HttpState.init]

/-- A command more in the sink comes after all others. -/
theorem builders_append (sink : List (HttpCommand B R)) (command : HttpCommand B R) :
  ∃ l, builders (sink ++ [command]) = builders sink ++ l
  := ⟨_, List.filterMap_append⟩

/-- A builder that is given once is not taken before its turn. -/
theorem RunInv.not_taken {s : HttpState B R P} (h : RunInv s) (hn : (builders s.sink).Nodup)
    {builder : B} (hb : (builders s.sink)[s.configured]? = some builder) :
  builder ∉ s.taken
  := by
  intro ht
  obtain ⟨hlt, hget⟩ := List.getElem?_eq_some_iff.mp hb
  obtain ⟨i, hi, hi'⟩ := List.mem_take_iff_getElem.mp (h.taken builder ht)
  have heq := hn.getElem_inj_iff.mp (hi'.trans hget.symm)
  omega

/-- An event keeps the invariant of the run loop. -/
theorem RunInv.step [DecidableEq B] {s t : HttpState B R P} {e : HttpEvent B R P} (h : RunInv s)
    (hclients : ClientInv s) (hb : Builds s e) (hs : Step convertible s e t) :
  RunInv t
  := by
  cases hs with
  | sink command he =>
      obtain ⟨l, hl⟩ := builders_append s.sink command
      refine ⟨?_, ?_, ?_, ?_⟩
      · rw [hl, List.length_append]
        apply Nat.le_add_right_of_le h.configured
      · intro builder hmem
        rw [hl, List.take_append_of_le_length h.configured]
        apply h.taken builder hmem
      · intro hn
        rw [hl] at hn
        apply h.panicked hn.of_append_left
      · intro result hr
        rw [(h.returned result hr).2.1] at he
        cases he
  | sinkEnd =>
      refine ⟨h.configured, h.taken, h.panicked, ?_⟩
      intro result hr
      exact ⟨(h.returned result hr).1, rfl, (h.returned result hr).2.2⟩
  | builderTaken builder result hr hget ht =>
      refine ⟨h.configured, h.taken, ?_, nofun⟩
      intro hn
      cases h.not_taken hn hget ht
  | built builder hr hget ht =>
      refine ⟨(List.getElem?_eq_some_iff.mp hget).1, ?_, fun _ => nofun, nofun⟩
      intro builder' hmem
      rw [List.take_add_one, hget]
      rcases List.mem_cons.mp hmem with rfl | hmem
      · simp
      · apply List.mem_append_left _ (h.taken builder' hmem)
  | buildFailed builder err hr hget ht => cases hb
  | sendClient client clients hr hc => exact ⟨h.configured, h.taken, fun _ => nofun, nofun⟩
  | clientClosed client hr hc =>
      rw [hclients.receiver] at hc
      cases hc
  | runEnd hr he hc =>
      refine ⟨h.configured, h.taken, fun _ => nofun, ?_⟩
      intro result heq
      cases heq
      exact ⟨rfl, he, hc⟩
  | _ => exact ⟨h.configured, h.taken, h.panicked, h.returned⟩

/-- The invariants hold of every state reached, when every builder gives a client. -/
theorem RunInv.of_run [DecidableEq B] {tr : List (HttpEvent B R P)} {s : HttpState B R P}
    (h : (machine convertible).run (HttpState.init B R P) tr = some s)
    (hb : (machine convertible).Along Builds (HttpState.init B R P) tr) :
  RunInv s
  := by
  refine ((machine convertible).run_invariant_along (Q := fun s => ClientInv s ∧ RunInv s)
    ⟨ClientInv.init, RunInv.init⟩ ?_ h hb).2
  rintro s e t ⟨hclients, hs⟩ hbuilds ht
  have hstep := step_of_machine ht
  exact ⟨hclients.step hstep, hs.step hclients hbuilds hstep⟩

/-- The clients made are with `responses`, in the channel, or await a permit. -/
theorem ClientInv.length {s : HttpState B R P} (h : ClientInv s) :
  s.repeated.toList.length + (s.clients.queue.length + s.run.reserved.length) =
    s.configured + s.default.toNat
  := by
  have hlen := congrArg List.length h.made
  rw [List.length_append, List.length_append, clientsMade, List.length_map,
    List.length_range] at hlen
  exact hlen

/-- There is room for the clients of all commands and the default one: one of them may be left in
the channel, and one may be with `responses`. -/
def Room (s : HttpState B R P) : Prop :=
  (builders s.sink).length + s.default.toNat ≤ clientBufferLen + s.repeated.toList.length

/-- When the driver returns.  In a quiescent state, the driver, whose sink has ended, has returned
exactly when there is room for all clients. -/
theorem returned_iff_room_of_quiescent [DecidableEq B] {s : HttpState B R P} {polled : Bool}
    (hclients : ClientInv s) (hresponses : ResponseInv convertible s) (h : RunInv s)
    (hn : (builders s.sink).Nodup) (he : s.sinkEnded = true)
    (hq : (machine convertible).Quiescent (awake polled) s) :
  s.run = .returned (.ok ()) ↔ Room s
  := by
  have hlen := hclients.length
  have hnot : ∀ {e t}, Step convertible s e t → ¬ awake polled e := by
    intro e t hs
    exact hq.not_step _ (hs.machine hclients.receiver hresponses.receiver)
  cases hr : s.run with
  | next =>
      rcases Nat.lt_or_eq_of_le h.configured with hlt | hall
      · have hget := List.getElem?_eq_getElem hlt
        cases hnot (Step.built _ hr hget (h.not_taken hn hget)) trivial
      · cases hnot (Step.runEnd hr he hall) trivial
  | reserve client =>
      apply iff_of_false nofun
      intro hroom
      have hfull : ¬ s.clients.queue.length < clientBufferLen := by
        intro hfree
        obtain ⟨clients, hc⟩ := Mpsc.exists_reserve hclients.receiver hfree client
        apply hnot (Step.sendClient client clients hr hc) trivial
      have hconfigured := h.configured
      rw [hr, RunLoop.reserved, List.length_singleton] at hlen
      rw [Room] at hroom
      omega
  | returned result =>
      obtain ⟨rfl, -, hall⟩ := h.returned result hr
      apply iff_of_true rfl
      have hbounded := s.clients.bounded
      simp only [hr, RunLoop.reserved, List.length_nil] at hlen
      rw [Room]
      omega
  | panicked => cases h.panicked hn hr

/-- What `responses` has taken part in: it has received a client, or made the default one. -/
def Untouched (s : HttpState B R P) : Prop :=
  s.repeated = none ∧ s.default = false

/-- Without `responses`, no client is received and the default one is not made. -/
theorem untouched_of_run [DecidableEq B] {tr : List (HttpEvent B R P)} {s : HttpState B R P}
    (h : (machine convertible).run (HttpState.init B R P) tr = some s)
    (hp : ∀ e ∈ tr, ¬ internal e) :
  Untouched s
  := by
  apply (machine convertible).run_invariant_along (P := fun _ e => ¬ internal e) ⟨rfl, rfl⟩ _ h
  · apply Machine.along_of_forall
    intro e he _
    apply hp e he
  · intro s e t hs hi ht
    cases step_of_machine ht with
    | recvClient => cases hi trivial
    | defaultClient => cases hi trivial
    | defaultClosed => cases hi trivial
    | _ => exact hs

/-- When the driver returns once its sink has ended.  The application holds the source and polls
one stream `responses`, or none.  In every quiescent state reached in which the sink has ended and
no execution is left, every builder having been given once and having given a client, the driver
has returned exactly when there is room for the clients of all commands and the default one: at
most one of them, or two when `responses` has received a client.  Without `responses` this means
at most one command that configures the client. -/
theorem returned_iff_room [DecidableEq B] {tr : List (HttpEvent B R P)} {s : HttpState B R P}
    (polled : Bool) (h : (machine convertible).run (HttpState.init B R P) tr = some s)
    (hb : (machine convertible).Along Builds (HttpState.init B R P) tr)
    (hn : (builders s.sink).Nodup) (hp : polled = false → ∀ e ∈ tr, ¬ internal e)
    (hq : (machine convertible).Quiescent (awake polled) s) (he : s.sinkEnded = true)
    (_ : s.executing = []) :
  (s.run = .returned (.ok ()) ↔ Room s) ∧
    (polled = false → (Room s ↔ (builders s.sink).length ≤ 1))
  := by
  constructor
  · apply returned_iff_room_of_quiescent (ClientInv.of_run h) (ResponseInv.of_run h)
      (RunInv.of_run h hb) hn he hq
  · intro hpolled
    obtain ⟨hr, hd⟩ := untouched_of_run h (hp hpolled)
    rw [Room, hr, hd]
    rfl

/-- Two clients are configured while `responses` is not called: the second one waits for ever.  Or
three are configured while `responses` is polled: the third one does. -/
theorem client_waits :
  (∃ s, (machine fun _ => true).run (HttpState.init ℕ String String)
      [.sink (.configureClient 0), .sink (.configureClient 1), .sinkEnd, .configureClient (.ok ()),
        .reserveClient, .configureClient (.ok ())] = some s ∧
    (machine fun _ => true).Quiescent (awake false) s ∧ s.sinkEnded = true ∧ s.executing = [] ∧
    s.run = .reserve (some 1)) ∧
  ∃ s, (machine fun _ => true).run (HttpState.init ℕ String String)
      [.sink (.configureClient 0), .sink (.configureClient 1), .sink (.configureClient 2), .sinkEnd,
        .configureClient (.ok ()), .reserveClient, .pollClient, .configureClient (.ok ()),
        .reserveClient, .configureClient (.ok ()), .zipEnd, .loopEnd, .responsesEnd] = some s ∧
    (machine fun _ => true).Quiescent (awake true) s ∧ s.sinkEnded = true ∧ s.executing = [] ∧
    s.run = .reserve (some 2)
  := by
  constructor
  · refine ⟨{ HttpState.init ℕ String String with
      sink := [.configureClient 0, .configureClient 1]
      sinkEnded := true
      taken := [1, 0]
      configured := 2
      run := .reserve (some 1)
      clients := ⟨[some 0], Nat.le_refl 1, true, true⟩ }, rfl, ?_, rfl, rfl, rfl⟩
    intro e he
    cases e with
    | configureClient result => rfl
    | reserveClient => rfl
    | runEnd => rfl
    | _ => cases he.1
  · refine ⟨{ HttpState.init ℕ String String with
      sink := [.configureClient 0, .configureClient 1, .configureClient 2]
      sinkEnded := true
      taken := [2, 1, 0]
      configured := 3
      run := .reserve (some 2)
      clients := ⟨[some 1], Nat.le_refl 1, true, true⟩
      repeated := some (some 0)
      client := some (some 0)
      loop := .flushing
      channel := (Mpsc.channel _ responseBufferLen).dropSender
      once := .ended }, rfl, ?_, rfl, rfl, rfl⟩
    intro e he
    cases e with
    | sink command => cases he.2
    | sinkEnd => cases he.2
    | execute k result => cases he.2
    | _ => rfl

/-- One client is configured, and the driver returns without `responses`. -/
theorem one_client_returns :
  ∃ s, (machine fun _ => true).run (HttpState.init ℕ String String)
      [.sink (.configureClient 0), .sinkEnd, .configureClient (.ok ()), .reserveClient,
        .runEnd] = some s ∧
    s.run = .returned (.ok ()) ∧ Room s
  := by
  have h : (machine fun _ => true).run (HttpState.init ℕ String String)
      [.sink (.configureClient 0), .sinkEnd, .configureClient (.ok ()), .reserveClient,
        .runEnd] = some { HttpState.init ℕ String String with
      sink := [.configureClient 0]
      sinkEnded := true
      taken := [0]
      configured := 1
      run := .returned (.ok ())
      clients := ⟨[some 0], Nat.le_refl 1, true, true⟩ } := rfl
  have hiff := (returned_iff_room false h ?_ (List.nodup_singleton 0) ?_ ?_ rfl rfl).1
  · exact ⟨_, h, rfl, hiff.mp rfl⟩
  · apply Machine.along_of_forall
    simp [Builds]
  · simp [internal]
  · intro e he
    cases e with
    | configureClient result => rfl
    | reserveClient => rfl
    | runEnd => rfl
    | _ => cases he.1

end HttpState

end Http

end Cyclers
