import Mathlib.Data.List.Perm.Basic
import Cyclers.Http.Driver

/-!
# The invariants of the HTTP driver

Two invariants hold of every state reached.  That of the clients says that all executions use
the first client to arrive at the source; that of the responses follows each request from the
sink to the items yielded.  Together they tell what has happened when nothing more can.
-/

open Async

namespace Cyclers

namespace Http

universe u

variable {B R P : Type u} {convertible : R → Bool}

namespace HttpState

/-! ### The clients -/

/-- The invariant of the clients: those made are the one repeated, then those on their way to
the source, in order; a client is awaiting a request, or executes one, only if it is the first
one made. -/
structure ClientInv (s : HttpState B R P) : Prop where
  made : s.repeated.toList ++ (s.clients.queue ++ s.run.reserved) =
    clientsMade s.default s.configured
  arrived : s.client ≠ none ∨ s.executions ≠ [] ∨ s.default = true →
    s.repeated.toList ++ s.clients.queue ≠ []
  client : ∀ client, s.client = some client → client = inForce (1 - s.default.toNat)
  executions : ∀ p ∈ s.executions, p.1 = inForce (1 - s.default.toNat)
  sender : s.clients.sender = true
  receiver : s.clients.receiver = true

theorem ClientInv.init :
  ClientInv (init B R P)
  := by
  constructor <;> simp [HttpState.init, clientsMade, RunLoop.reserved]

/-- An event keeps the invariant of the clients. -/
theorem ClientInv.step [DecidableEq B] {s t : HttpState B R P} {e : HttpEvent B R P} (h : ClientInv s)
    (hs : Step convertible s e t) :
  ClientInv t
  := by
  obtain ⟨made, arrived, client, executions, sender, receiver⟩ := h
  cases hs with
  | builderTaken builder result hr hb ht =>
      rw [hr] at made
      exact ⟨made, arrived, client, executions, sender, receiver⟩
  | built builder hr hb ht =>
      refine ⟨?_, arrived, client, executions, sender, receiver⟩
      rw [clientsMade_configure, ← made, hr]
      simp [RunLoop.reserved]
  | buildFailed builder err hr hb ht =>
      rw [hr] at made
      exact ⟨made, arrived, client, executions, sender, receiver⟩
  | sendClient c clients hr hc =>
      obtain ⟨-, -, hq, hs, hr'⟩ := Mpsc.reserve_eq_some.mp hc
      refine ⟨?_, ?_, client, executions, hs.trans sender, hr'⟩
      · rw [← made, hq, hr]
        simp [RunLoop.reserved]
      · intro _
        simp [hq]
  | clientClosed c hr hc =>
      rw [receiver] at hc
      cases hc
  | runEnd hr he hc =>
      rw [hr] at made
      exact ⟨made, arrived, client, executions, sender, receiver⟩
  | repeatClient c hl hc hr =>
      refine ⟨made, ?_, ?_, executions, sender, receiver⟩
      · intro _
        simp [hr]
      · intro c' heq
        cases heq
        have hfirst : (clientsMade s.default s.configured)[0]? = some c := by
          rw [← made, hr]
          rfl
        apply getElem?_clientsMade hfirst
  | recvClient c clients hl hc hr hcl =>
      obtain ⟨hq, hs, hr'⟩ := Mpsc.recv_eq_some.mp hcl
      have hmade : c :: (clients.queue ++ s.run.reserved) =
          clientsMade s.default s.configured := by
        rw [← made, hr, hq]
        rfl
      refine ⟨hmade, ?_, ?_, executions, hs.trans sender, hr'.trans receiver⟩
      · intro _
        exact nofun
      · intro c' heq
        cases heq
        have hfirst : (clientsMade s.default s.configured)[0]? = some c := by
          rw [← hmade]
          rfl
        apply getElem?_clientsMade hfirst
  | defaultClient clients hl hc hh hd hq hcl =>
      obtain ⟨hr, hempty⟩ := hasClient_eq_false.mp hh
      obtain ⟨-, -, hq', hs, hr'⟩ := Mpsc.reserve_eq_some.mp hcl
      have hnone : s.executions = [] := by
        by_contra hne
        apply arrived (.inr (.inl hne))
        simp [hr, hempty]
      refine ⟨?_, ?_, ?_, ?_, hs.trans sender, hr'⟩
      · rw [hr, hempty, hd] at made
        rw [clientsMade_default, ← made, hq', hr, hempty]
        rfl
      · intro _
        simp [hq']
      · intro c' heq
        cases heq
        rfl
      · rw [hnone]
        exact nofun
  | defaultClosed hn hc =>
      rw [receiver] at hc
      cases hc
  | zip c request hl hc hr hcv =>
      refine ⟨made, ?_, nofun, ?_, sender, receiver⟩
      · intro _
        apply arrived
        rw [hc]
        exact .inl nofun
      · intro p hp
        rcases List.mem_append.mp hp with hp | hp
        · apply executions p hp
        · cases List.mem_singleton.mp hp
          apply client c hc
  | _ => exact ⟨made, arrived, client, executions, sender, receiver⟩

/-- The stream of clients ends only when the sink has ended without a request. -/
theorem ClientInv.clientsEnd {s : HttpState B R P} (h : ClientInv s)
    (he : s.clientsEnded = true) :
  s.sinkEnded = true ∧ requests s.sink = []
  := by
  rw [clientsEnded, Bool.and_eq_true, Bool.not_eq_true', hasClient_eq_false] at he
  obtain ⟨⟨hr, hq⟩, hd⟩ := he
  rcases Bool.or_eq_true_iff.mp hd with hd | hd
  · cases h.arrived (.inr (.inr hd)) (by simp [hr, hq])
  · rw [Bool.and_eq_true, List.isEmpty_iff] at hd
    exact hd

/-- The invariant of the clients holds of every state reached. -/
theorem ClientInv.of_run [DecidableEq B] {tr : List (HttpEvent B R P)} {s : HttpState B R P}
    (h : (machine convertible).run (HttpState.init B R P) tr = some s) :
  ClientInv s
  := by
  apply (machine convertible).run_invariant ClientInv.init _ h
  intro s e t hs ht
  apply hs.step (step_of_machine ht)

/-! ### The responses -/

/-- The invariant of the responses.  The requests taken are executed in order; each execution
either has not ended or has one outcome; each outcome is yielded, in the channel, or awaits a
permit; and the loop ends after every execution has, and none awaits a permit. -/
structure ResponseInv (convertible : R → Bool) (s : HttpState B R P) : Prop where
  requests : s.executions.map Prod.snd ++ s.request.toList =
    ((requests s.sink).take s.sent).map Prod.snd
  sent : s.sent ≤ (Http.requests s.sink).length
  executing : (s.executing ++ s.outcomes.map Prod.fst).Perm (List.range s.executions.length)
  outcomes : (s.yielded ++ (s.channel.queue ++ s.reserving)).Perm s.outcomes
  flushing : s.loop = .flushing →
    s.sinkEnded = true ∧ s.request = none ∧ s.sent = (Http.requests s.sink).length
  once : s.once ≠ .pending → s.loop = .flushing ∧ s.executing = [] ∧ s.reserving = []
  sender : s.channel.sender = true ↔ s.once = .pending
  receiver : s.channel.receiver = true
  panicked : s.loop = .panicked → ∃ p ∈ Http.requests s.sink, convertible p.2 = false
  convertible : ∀ p ∈ s.executions, convertible p.2 = true

theorem ResponseInv.init :
  ResponseInv convertible (init B R P)
  := by
  constructor <;> simp [HttpState.init]

/-- A command more in the sink comes after all others. -/
theorem requests_append (sink : List (HttpCommand B R)) (command : HttpCommand B R) :
  ∃ l, Http.requests (sink ++ [command]) = Http.requests sink ++ l
  := by
  simp only [Http.requests, List.map_append, List.map_cons, List.map_nil]
  cases command with
  | configureClient builder =>
      use []
      simp [clientUse]
  | sendRequest request => exact ⟨_, uses_use _ _⟩

/-- A loop that is running has not yet ended. -/
theorem ResponseInv.once_of_running {s : HttpState B R P} (h : ResponseInv convertible s)
    (hl : s.loop = .running) :
  s.once = .pending
  := by
  by_contra ho
  rw [(h.once ho).1] at hl
  cases hl

/-- A command more in the sink keeps the invariant of the responses. -/
theorem ResponseInv.sink {s : HttpState B R P} (h : ResponseInv convertible s)
    (he : s.sinkEnded = false) (command : HttpCommand B R) :
  ResponseInv convertible { s with sink := s.sink ++ [command] }
  := by
  obtain ⟨l, hl⟩ := requests_append s.sink command
  refine ⟨?_, ?_, h.executing, h.outcomes, ?_, h.once, h.sender, h.receiver, ?_,
    h.convertible⟩
  · rw [hl, List.take_append_of_le_length h.sent]
    exact h.requests
  · rw [hl, List.length_append]
    apply Nat.le_add_right_of_le h.sent
  · intro hf
    rw [(h.flushing hf).1] at he
    cases he
  · intro hp
    obtain ⟨p, hmem, hcv⟩ := h.panicked hp
    use p
    rw [hl]
    exact ⟨List.mem_append_left _ hmem, hcv⟩

/-- A request that is paired with a client, and can be converted, becomes the last execution. -/
theorem ResponseInv.pair {s : HttpState B R P} (h : ResponseInv convertible s)
    (hl : s.loop = .running) {request : R} (hr : s.request = some request)
    (hcv : convertible request = true) (client : Client) :
  ResponseInv convertible { s with
    client := none
    request := none
    executions := s.executions ++ [(client, request)]
    executing := s.executing ++ [s.executions.length] }
  := by
  refine ⟨?_, h.sent, ?_, h.outcomes, ?_, ?_, h.sender, h.receiver, h.panicked, ?_⟩
  · rw [← h.requests, hr]
    simp
  · rw [List.length_append, List.length_singleton, List.range_succ, List.append_assoc]
    apply List.Perm.trans (List.perm_append_comm_assoc _ _ _)
    apply List.Perm.trans List.perm_append_comm
    apply h.executing.append_right
  · intro hf
    rw [show s.loop = .flushing from hf] at hl
    cases hl
  · intro ho
    cases ho (h.once_of_running hl)
  · intro p hp
    rcases List.mem_append.mp hp with hp | hp
    · apply h.convertible p hp
    · cases List.mem_singleton.mp hp
      exact hcv

/-- A request that awaits its client is one of those in the sink. -/
theorem ResponseInv.mem_requests {s : HttpState B R P} (h : ResponseInv convertible s)
    {request : R} (hr : s.request = some request) :
  ∃ p ∈ Http.requests s.sink, p.2 = request
  := by
  have hmem : request ∈ ((Http.requests s.sink).take s.sent).map Prod.snd := by
    rw [← h.requests, hr]
    simp
  obtain ⟨p, hp, heq⟩ := List.mem_map.mp hmem
  exact ⟨p, List.mem_of_mem_take hp, heq⟩

/-- The loop flushes once the sink has ended and every request has been taken and paired. -/
theorem ResponseInv.flush {s : HttpState B R P} (h : ResponseInv convertible s)
    (hl : s.loop = .running) (he : s.sinkEnded = true) (hr : s.request = none)
    (hs : s.sent = (Http.requests s.sink).length) :
  ResponseInv convertible { s with loop := .flushing }
  := by
  refine ⟨h.requests, h.sent, h.executing, h.outcomes, fun _ => ⟨he, hr, hs⟩, ?_, h.sender,
    h.receiver, nofun, h.convertible⟩
  intro ho
  cases ho (h.once_of_running hl)

/-- When there is no request in the sink, none is awaiting its client and none has been taken. -/
theorem ResponseInv.of_requests_nil {s : HttpState B R P} (h : ResponseInv convertible s)
    (hnil : Http.requests s.sink = []) :
  s.request = none ∧ s.sent = (Http.requests s.sink).length
  := by
  have hreqs := h.requests
  have hsent := h.sent
  rw [hnil] at hreqs hsent ⊢
  rw [List.take_nil, List.map_nil, List.append_eq_nil_iff] at hreqs
  exact ⟨Option.toList_eq_nil_iff.mp hreqs.2, Nat.le_zero.mp hsent⟩

/-- An execution that gives its result awaits a permit for it. -/
theorem ResponseInv.execute {s : HttpState B R P} (h : ResponseInv convertible s) {k : ℕ}
    (hk : k ∈ s.executing) (result : Except BoxError P) :
  ResponseInv convertible { s with
    executing := s.executing.erase k
    reserving := s.reserving ++ [(k, result)]
    outcomes := s.outcomes ++ [(k, result)] }
  := by
  refine ⟨h.requests, h.sent, ?_, ?_, h.flushing, ?_, h.sender, h.receiver, h.panicked,
    h.convertible⟩
  · apply List.Perm.trans _ h.executing
    rw [List.map_append, List.map_singleton, ← List.append_assoc]
    apply List.Perm.trans List.perm_append_comm
    rw [List.singleton_append, ← List.cons_append]
    apply List.Perm.append_right
    exact (List.perm_cons_erase hk).symm
  · rw [← List.append_assoc, ← List.append_assoc, List.append_assoc s.yielded]
    apply h.outcomes.append_right
  · intro ho
    rw [(h.once ho).2.1] at hk
    cases hk

/-- A response that is granted its permit is sent. -/
theorem ResponseInv.send {s : HttpState B R P} (h : ResponseInv convertible s) {i : ℕ}
    {response : ℕ × Except BoxError P} (hr : s.reserving[i]? = some response)
    {channel : Mpsc (ℕ × Except BoxError P) responseBufferLen}
    (hc : s.channel.reserve response = .ready (some channel)) :
  ResponseInv convertible { s with reserving := s.reserving.eraseIdx i, channel := channel }
  := by
  obtain ⟨-, -, hq, hs, hr'⟩ := Mpsc.reserve_eq_some.mp hc
  obtain ⟨hi, rfl⟩ := List.getElem?_eq_some_iff.mp hr
  have hpending : s.once = .pending := by
    by_contra ho
    rw [(h.once ho).2.2] at hi
    cases hi
  refine ⟨h.requests, h.sent, h.executing, ?_, h.flushing, ?_, ?_, hr', h.panicked,
    h.convertible⟩
  · rw [hq, List.append_assoc]
    apply List.Perm.trans _ h.outcomes
    apply List.Perm.append_left
    apply List.Perm.append_left
    exact List.getElem_cons_eraseIdx_perm hi
  · intro ho
    cases ho hpending
  · rw [hs]
    exact h.sender

/-- A response that is received is yielded. -/
theorem ResponseInv.yieldResponse {s : HttpState B R P} (h : ResponseInv convertible s)
    {response : ℕ × Except BoxError P} {channel : Mpsc (ℕ × Except BoxError P) responseBufferLen}
    (hc : s.channel.recv = .ready (some (response, channel))) :
  ResponseInv convertible { s with channel := channel, yielded := s.yielded ++ [response] }
  := by
  obtain ⟨hq, hs, hr'⟩ := Mpsc.recv_eq_some.mp hc
  refine ⟨h.requests, h.sent, h.executing, ?_, h.flushing, h.once, ?_, hr'.trans h.receiver,
    h.panicked, h.convertible⟩
  · have houtcomes := h.outcomes
    rw [hq] at houtcomes
    simpa using houtcomes
  · rw [hs]
    exact h.sender

/-- An event keeps the invariant of the responses. -/
theorem ResponseInv.step [DecidableEq B] {s t : HttpState B R P} {e : HttpEvent B R P}
    (h : ResponseInv convertible s) (hclients : ClientInv s) (hs : Step convertible s e t) :
  ResponseInv convertible t
  := by
  cases hs with
  | sink command he => apply h.sink he
  | sinkEnd =>
      exact ⟨h.requests, h.sent, h.executing, h.outcomes, fun hf => ⟨rfl, (h.flushing hf).2⟩, h.once,
        h.sender, h.receiver, h.panicked, h.convertible⟩
  | pollRequest c request hl hr hq =>
      have hlt := (List.getElem?_eq_some_iff.mp hq).1
      refine ⟨?_, hlt, h.executing, h.outcomes, ?_, h.once, h.sender, h.receiver, h.panicked,
        h.convertible⟩
      · rw [List.take_add_one, hq, List.map_append, ← h.requests, hr]
        simp
      · intro hf
        rw [show s.loop = .flushing from hf] at hl
        cases hl
  | zip client request hl hc hr hcv => apply h.pair hl hr hcv
  | zipPanicked client request hl hc hr hcv =>
      refine ⟨h.requests, h.sent, h.executing, h.outcomes, nofun, ?_, h.sender, h.receiver,
        ?_, h.convertible⟩
      · intro ho
        cases ho (h.once_of_running hl)
      · intro _
        obtain ⟨p, hp, rfl⟩ := h.mem_requests hr
        exact ⟨p, hp, hcv⟩
  | clientsEnd hl hc he =>
      obtain ⟨hended, hnil⟩ := hclients.clientsEnd he
      obtain ⟨hr, hs⟩ := h.of_requests_nil hnil
      apply h.flush hl hended hr hs
  | requestsEnd hl hr he hs => apply h.flush hl he hr hs
  | execute k result hl hk => apply h.execute hk
  | sendResponse i response channel hl hr hc => apply h.send hr hc
  | responseClosed i response hr hc =>
      rw [h.receiver] at hc
      cases hc
  | loopEnd hl he hr ho =>
      exact ⟨h.requests, h.sent, h.executing, h.outcomes, h.flushing, fun _ => ⟨hl, he, hr⟩,
        ⟨nofun, nofun⟩, h.receiver, h.panicked, h.convertible⟩
  | yieldResponse response channel hl ho hc => apply h.yieldResponse hc
  | responsesEnd hl ho =>
      have hne : s.once ≠ .pending := by
        rw [ho]
        exact nofun
      refine ⟨h.requests, h.sent, h.executing, h.outcomes, h.flushing, fun _ => h.once hne, ?_,
        h.receiver, h.panicked, h.convertible⟩
      exact ⟨fun hs => absurd (h.sender.mp hs) hne, nofun⟩
  | _ => exact ⟨h.requests, h.sent, h.executing, h.outcomes, h.flushing, h.once, h.sender,
      h.receiver, h.panicked, h.convertible⟩

/-- The invariant of the responses holds of every state reached. -/
theorem ResponseInv.of_run [DecidableEq B] {tr : List (HttpEvent B R P)} {s : HttpState B R P}
    (h : (machine convertible).run (HttpState.init B R P) tr = some s) :
  ResponseInv convertible s
  := by
  refine ((machine convertible).run_invariant (P := fun s => ClientInv s ∧ ResponseInv convertible s)
    ⟨ClientInv.init, ResponseInv.init⟩ ?_ h).2
  rintro s e t ⟨hclients, hs⟩ ht
  have hstep := step_of_machine ht
  exact ⟨hclients.step hstep, hs.step hclients hstep⟩

/-- The channel of the responses gives one that is there whenever it is polled: no runtime holds it
back. -/
def Prompt (s : HttpState B R P) : HttpEvent B R P → Prop
  | .responsesEnd => s.channel.queue = []
  | _ => True

/-- When the stream has ended, no response is left in the channel. -/
def Delivered (s : HttpState B R P) : Prop :=
  s.once = .ended → s.channel.queue = []

/-- A prompt event leaves no response in the channel when the stream ends. -/
theorem Delivered.step [DecidableEq B] {s t : HttpState B R P} {e : HttpEvent B R P}
    (h : Delivered s) (hinv : ResponseInv convertible s) (he : s.Prompt e)
    (hs : Step convertible s e t) :
  Delivered t
  := by
  cases hs with
  | sendResponse i response channel hl hr hc =>
      intro ho
      have hreserving := (hinv.once (by rw [show s.once = .ended from ho]; exact nofun)).2.2
      rw [hreserving] at hr
      cases hr
  | yieldResponse response channel hl ho hc => exact fun hended => absurd hended ho
  | loopEnd hl he hr ho => exact nofun
  | responsesEnd hl ho => exact fun _ => he
  | _ => exact h

/-- In a run along which the channel is prompt, no response is left in it when the stream has
ended. -/
theorem Delivered.of_run [DecidableEq B] {tr : List (HttpEvent B R P)} {s : HttpState B R P}
    (h : (machine convertible).run (HttpState.init B R P) tr = some s)
    (ha : (machine convertible).Along Prompt (HttpState.init B R P) tr) :
  Delivered s
  := by
  refine ((machine convertible).run_invariant_along
    (Q := fun s => ClientInv s ∧ ResponseInv convertible s ∧ Delivered s)
    ⟨ClientInv.init, ResponseInv.init, nofun⟩ ?_ h ha).2.2
  rintro s e t ⟨hclients, hinv, hs⟩ he ht
  have hstep := step_of_machine ht
  exact ⟨hclients.step hstep, hinv.step hclients hstep, hs.step hinv he hstep⟩

/-! ### Quiescent states -/

/-- The events that need nothing but `responses` to be polled: the sink, the driver and the
executions have no part in them. -/
def internal : HttpEvent B R P → Prop
  | .pollClient => True
  | .pollDefaultClient => True
  | .pollRequest => True
  | .zip => True
  | .zipEnd => True
  | .reserveResponse _ => True
  | .loopEnd => True
  | .yieldResponse => True
  | .responsesEnd => True
  | _ => False

section

variable [DecidableEq B] {s : HttpState B R P} (hclients : ClientInv s)
  (h : ResponseInv convertible s) (hq : (machine convertible).Quiescent internal s)

include hclients h hq

/-- In a quiescent state a step is not internal. -/
theorem not_internal {e : HttpEvent B R P} {t : HttpState B R P} (hs : Step convertible s e t) :
  ¬ internal e
  := hq.not_step _ (hs.machine hclients.receiver h.receiver)

/-- In a quiescent state every response sent has been yielded, unless the stream has ended. -/
theorem queue_of_quiescent (hl : s.loop ≠ .panicked) (ho : s.once ≠ .ended) :
  s.channel.queue = []
  := by
  cases hqu : s.channel.queue with
  | nil => rfl
  | cons response q =>
      obtain ⟨channel, hc⟩ := Mpsc.exists_recv hqu
      cases not_internal hclients h hq (Step.yieldResponse response channel hl ho hc) trivial

/-- In a quiescent state no response awaits a permit. -/
theorem reserving_of_quiescent (hl : s.loop ≠ .panicked) :
  s.reserving = []
  := by
  by_contra hne
  have hpending : s.once = .pending := by
    by_contra ho
    exact hne (h.once ho).2.2
  cases hr : s.reserving with
  | nil => exact hne hr
  | cons response reserving =>
      have hfree : s.channel.queue.length < responseBufferLen := by
        rw [queue_of_quiescent hclients h hq hl (by rw [hpending]; exact nofun)]
        exact Nat.one_pos
      obtain ⟨channel, hc⟩ := Mpsc.exists_reserve h.receiver hfree response
      have hget : s.reserving[0]? = some response := by
        rw [hr]
        rfl
      cases not_internal hclients h hq (Step.sendResponse 0 response channel hl hget hc) trivial

/-- In a quiescent state there is a client for a request that awaits one. -/
theorem client_of_quiescent (hl : s.loop = .running) (hr : Http.requests s.sink ≠ []) :
  s.client ≠ none
  := by
  intro hc
  have hrepeated : s.repeated = none := by
    cases hrep : s.repeated with
    | none => rfl
    | some client =>
        cases not_internal hclients h hq (Step.repeatClient client hl hc hrep) trivial
  have hqueue : s.clients.queue = [] := by
    cases hqu : s.clients.queue with
    | nil => rfl
    | cons client q =>
        obtain ⟨clients, hcl⟩ := Mpsc.exists_recv hqu
        cases not_internal hclients h hq (Step.recvClient client clients hl hc hrepeated hcl) trivial
  have hdefault : s.default = false := by
    apply (Bool.not_eq_true _).mp
    intro hd
    apply hclients.arrived (.inr (.inr hd))
    simp [hrepeated, hqueue]
  have hfree : s.clients.queue.length < clientBufferLen := by
    rw [hqueue]
    exact Nat.one_pos
  obtain ⟨clients, hcl⟩ := Mpsc.exists_reserve hclients.receiver hfree none
  have hhas := hasClient_eq_false.mpr ⟨hrepeated, hqueue⟩
  apply not_internal hclients h hq (Step.defaultClient clients hl hc hhas hdefault hr hcl) trivial

/-- In a quiescent state every request has been taken and paired. -/
theorem requests_of_quiescent (hl : s.loop ≠ .panicked) :
  s.request = none ∧ s.sent = (Http.requests s.sink).length
  := by
  cases hloop : s.loop with
  | panicked => cases hl hloop
  | flushing => exact (h.flushing hloop).2
  | running =>
      have hrequest : s.request = none := by
        cases hr : s.request with
        | none => rfl
        | some request =>
            have hne : Http.requests s.sink ≠ [] := by
              intro hnil
              have hreqs := h.requests
              rw [hnil, hr] at hreqs
              simp at hreqs
            obtain ⟨client, hc⟩ := Option.ne_none_iff_exists'.mp
              (client_of_quiescent hclients h hq hloop hne)
            cases hcv : convertible request with
            | true =>
                cases not_internal hclients h hq (Step.zip client request hloop hc hr hcv) trivial
            | false =>
                cases not_internal hclients h hq
                  (Step.zipPanicked client request hloop hc hr hcv) trivial
      refine ⟨hrequest, Nat.le_antisymm h.sent ?_⟩
      by_contra hlt
      have hget := List.getElem?_eq_getElem (Nat.lt_of_not_le hlt)
      apply not_internal hclients h hq (Step.pollRequest _ _ hloop hrequest hget) trivial

end

/-- When every request has been taken and paired, the executions are those of the requests, in
order. -/
theorem ResponseInv.executions {s : HttpState B R P} (h : ResponseInv convertible s)
    (hr : s.request = none) (hs : s.sent = (Http.requests s.sink).length) :
  s.executions.map Prod.snd = (Http.requests s.sink).map Prod.snd
  := by
  have hreqs := h.requests
  rw [hr, hs, List.take_length] at hreqs
  simpa using hreqs

/-- The requests executed are the first ones of the sink. -/
theorem ResponseInv.executions_le {s : HttpState B R P} (h : ResponseInv convertible s) :
  s.executions.map Prod.snd <+: (Http.requests s.sink).map Prod.snd
  := by
  apply List.IsPrefix.trans (List.prefix_append _ s.request.toList)
  rw [h.requests]
  apply (List.take_prefix _ _).map

end HttpState

end Http

end Cyclers
