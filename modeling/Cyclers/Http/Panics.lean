import Cyclers.Http.Exit
import Cyclers.Http.Responses
import Mathlib.Data.List.Infix

/-!
# The panics of the HTTP driver

The run loop takes the builder of a command out of its cell, and panics when a clone of the
command has had it taken before; the loop of the executions panics on a request that cannot be
converted.  Of the builders only the first three are ever taken: that of the client that is
repeated, that of the one in the channel, and that of the one that awaits a permit.  So the
commands tell whether a run of them can panic.
-/

open Async

namespace Cyclers

namespace Http

universe u

variable {B R P : Type u} {convertible : R → Bool}

/-! ### Branches that are not reached -/

/-- The commands that the run loop keeps. -/
def isConfigureClient : HttpCommand B R → Bool
  | .configureClient _ => true
  | .sendRequest _ => false

/-- The commands that `responses` keeps. -/
def isSendRequest : HttpCommand B R → Bool
  | .configureClient _ => false
  | .sendRequest _ => true

/-- The builder of a command that the run loop has kept, `none` being the branch that is marked
as unreachable. -/
def configureClientOf : HttpCommand B R → Option B
  | .configureClient builder => some builder
  | .sendRequest _ => none

/-- The request of a command that `responses` has kept, `none` being the branch that is marked
as unreachable. -/
def sendRequestOf : HttpCommand B R → Option R
  | .configureClient _ => none
  | .sendRequest request => some request

/-- Of the commands kept by the run loop all have a builder. -/
theorem map_configureClientOf (commands : List (HttpCommand B R)) :
  (commands.filter isConfigureClient).map configureClientOf = (builders commands).map some
  := by
  induction commands with
  | nil => rfl
  | cons command commands ih =>
      cases command with
      | configureClient builder => exact congrArg (some builder :: ·) ih
      | sendRequest request => exact ih

theorem requests_map_some (commands : List (HttpCommand B R)) (c : ℕ) :
  (commands.filter isSendRequest).map sendRequestOf =
    (usesFrom c (commands.map clientUse)).map fun p => some p.2
  := by
  induction commands generalizing c with
  | nil => rfl
  | cons command commands ih =>
      cases command with
      | configureClient builder => exact ih (c + 1)
      | sendRequest request => exact congrArg (some request :: ·) (ih c)

/-- Of the commands kept by `responses` all have a request. -/
theorem map_sendRequestOf (commands : List (HttpCommand B R)) :
  (commands.filter isSendRequest).map sendRequestOf = (requests commands).map fun p => some p.2
  := requests_map_some commands 0

/-! ### The builders taken -/

/-- How many builders are taken at most: one client is repeated, some are in the channel, and one
awaits a permit. -/
def takenLen : ℕ := clientBufferLen + 2

namespace HttpState

/-- The invariant of the builders taken: they are the first ones of the sink, and the run loop
panics only when one of the first is given twice. -/
structure TakenInv (s : HttpState B R P) : Prop where
  configured : s.configured ≤ (builders s.sink).length
  taken : (∀ result, s.run ≠ .returned result) →
    ∀ builder ∈ s.taken, builder ∈ (builders s.sink).take s.configured
  panicked : s.run = .panicked → ¬ ((builders s.sink).take takenLen).Nodup

theorem TakenInv.init :
  TakenInv (init B R P)
  := by
  constructor <;> simp [HttpState.init]

/-- The builder that is about to be taken is one of the first. -/
theorem ClientInv.configured_lt {s : HttpState B R P} (h : ClientInv s) (hr : s.run = .next) :
  s.configured < takenLen
  := by
  have hlen := h.length
  have hrepeated : s.repeated.toList.length ≤ 1 := Option.length_toList_le
  have hqueue := s.clients.bounded
  simp only [hr, RunLoop.reserved, List.length_nil] at hlen
  rw [takenLen]
  omega

/-- An event keeps the invariant of the builders taken. -/
theorem TakenInv.step [DecidableEq B] {s t : HttpState B R P} {e : HttpEvent B R P} (h : TakenInv s)
    (hclients : ClientInv s) (hs : Step convertible s e t) :
  TakenInv t
  := by
  cases hs with
  | sink command he =>
      obtain ⟨l, hl⟩ := builders_append s.sink command
      refine ⟨?_, ?_, ?_⟩
      · rw [hl, List.length_append]
        apply Nat.le_add_right_of_le h.configured
      · intro hr builder hmem
        rw [hl, List.take_append_of_le_length h.configured]
        apply h.taken hr builder hmem
      · intro hp hn
        rw [hl, List.take_append] at hn
        apply h.panicked hp hn.of_append_left
  | builderTaken builder result hr hget ht =>
      have hmem := h.taken (by simp [hr]) builder ht
      refine ⟨h.configured, fun _ => h.taken (by simp [hr]), fun _ => ?_⟩
      apply not_nodup_take hmem hget (hclients.configured_lt hr)
  | built builder hr hget ht =>
      refine ⟨(List.getElem?_eq_some_iff.mp hget).1, ?_, by simp⟩
      intro _ builder' hmem
      rw [List.take_add_one, hget]
      rcases List.mem_cons.mp hmem with rfl | hmem
      · simp
      · apply List.mem_append_left _ (h.taken (by simp [hr]) builder' hmem)
  | buildFailed builder err hr hget ht => exact ⟨h.configured, by simp, by simp⟩
  | sendClient client clients hr hc =>
      exact ⟨h.configured, fun _ => h.taken (by simp [hr]), by simp⟩
  | clientClosed client hr hc => exact ⟨h.configured, by simp, by simp⟩
  | runEnd hr he hc => exact ⟨h.configured, by simp, by simp⟩
  | _ => exact ⟨h.configured, h.taken, h.panicked⟩

/-- The invariant of the builders taken holds of every state reached. -/
theorem TakenInv.of_run [DecidableEq B] {tr : List (HttpEvent B R P)} {s : HttpState B R P}
    (h : (machine convertible).run (HttpState.init B R P) tr = some s) :
  TakenInv s
  := by
  refine ((machine convertible).run_invariant (P := fun s => ClientInv s ∧ TakenInv s)
    ⟨ClientInv.init, TakenInv.init⟩ ?_ h).2
  rintro s e t ⟨hclients, hs⟩ ht
  have hstep := step_of_machine ht
  exact ⟨hclients.step hstep, hs.step hclients hstep⟩

/-! ### Runs that panic -/

/-- The state in which the sink has yielded some commands, and nothing else has happened. -/
def ofSink (P : Type u) (commands : List (HttpCommand B R)) : HttpState B R P :=
  { init B R P with sink := commands }

/-- The sink may yield any commands. -/
theorem run_sink [DecidableEq B] (s : HttpState B R P) (commands : List (HttpCommand B R))
    (he : s.sinkEnded = false) :
  (machine convertible).run s (commands.map .sink) = some { s with sink := s.sink ++ commands }
  := by
  induction commands generalizing s with
  | nil => simp
  | cons command commands ih =>
      have hstep : (machine convertible).step s (.sink command) =
          some { s with sink := s.sink ++ [command] } := by
        simp [machine, step, he]
      rw [List.map_cons, Machine.run_cons, hstep, Option.bind_some, ih _ (by exact he)]
      simp

theorem run_ofSink [DecidableEq B] (commands : List (HttpCommand B R)) :
  (machine convertible).run (init B R P) (commands.map .sink) = some (ofSink P commands)
  := by
  apply run_sink
  rfl

/-- When one of the first builders is given twice, the run loop can panic. -/
theorem exists_run_panicked [DecidableEq B] {commands : List (HttpCommand B R)}
    (h : ¬ ((builders commands).take takenLen).Nodup) :
  ∃ tr s, (machine convertible).run (ofSink P commands) tr = some s ∧ s.sink = commands ∧
    s.run = .panicked
  := by
  rcases hb : builders commands with _ | ⟨first, _ | ⟨second, rest⟩⟩
  · rw [hb] at h
    cases h List.nodup_nil
  · rw [hb] at h
    cases h (List.nodup_singleton first)
  · by_cases heq : second = first
    · refine ⟨[.configureClient (.ok ()), .reserveClient, .configureClient (.ok ())],
        { ofSink P commands with
          taken := [first]
          configured := 1
          run := .panicked
          clients := ⟨[some 0], Nat.le_refl 1, true, true⟩ }, ?_, rfl, rfl⟩
      simp [machine, step, configureClient, ofSink, HttpState.init, hb, heq, Mpsc.reserve,
        Mpsc.channel, clientBufferLen]
    · rcases rest with _ | ⟨third, rest⟩
      · rw [hb] at h
        cases h (List.nodup_cons.mpr ⟨by simp [Ne.symm heq], List.nodup_singleton second⟩)
      · have hthird : third = second ∨ third = first := by
          by_contra hne
          rw [not_or] at hne
          apply h
          rw [hb]
          simp [takenLen, clientBufferLen, Ne.symm heq, Ne.symm hne.1, Ne.symm hne.2]
        refine ⟨[.configureClient (.ok ()), .reserveClient, .pollClient, .configureClient (.ok ()),
            .reserveClient, .configureClient (.ok ())],
          { ofSink P commands with
            taken := [second, first]
            configured := 2
            run := .panicked
            clients := ⟨[some 1], Nat.le_refl 1, true, true⟩
            repeated := some (some 0)
            client := some (some 0) }, ?_, rfl, rfl⟩
        simp [machine, step, configureClient, pollClient, ofSink, HttpState.init, hb, heq, hthird,
          Mpsc.reserve, Mpsc.recv, Mpsc.channel, clientBufferLen]

/-- The events of `responses` leave the sink as it is. -/
theorem sink_of_internal [DecidableEq B] {tr : List (HttpEvent B R P)} {s t : HttpState B R P}
    (h : (machine convertible).run s tr = some t) (hi : ∀ e ∈ tr, internal e) :
  t.sink = s.sink
  := by
  refine (machine convertible).run_invariant_along (P := fun _ e => internal e)
    (Q := fun t => t.sink = s.sink) rfl ?_ h ?_
  · intro t e u ht he hs
    cases step_of_machine hs with
    | sink => cases he
    | _ => exact ht
  · apply Machine.along_of_forall
    intro e he _
    apply hi e he

/-- When a request cannot be converted, the loop of the executions can panic. -/
theorem exists_loop_panicked [DecidableEq B] {commands : List (HttpCommand B R)} {p : ℕ × R}
    (hp : p ∈ requests commands) (hcv : convertible p.2 = false) :
  ∃ tr s, (machine convertible).run (ofSink P commands) tr = some s ∧ s.sink = commands ∧
    s.loop = .panicked
  := by
  obtain ⟨tr, t, hinternal, -, hrun, hq⟩ := exists_quiescent (ofSink P commands)
  have hsink : t.sink = commands := sink_of_internal hrun hinternal
  refine ⟨tr, t, hrun, hsink, ?_⟩
  by_contra hl
  have hreach : (machine convertible).run (init B R P) (commands.map .sink ++ tr) = some t := by
    rw [Machine.run_append, run_ofSink, Option.bind_some, hrun]
  have hinv := ResponseInv.of_run hreach
  obtain ⟨hrequest, hsent⟩ := requests_of_quiescent (ClientInv.of_run hreach) hinv hq hl
  have hmem : p.2 ∈ t.executions.map Prod.snd := by
    rw [hinv.executions hrequest hsent, hsink]
    apply List.mem_map_of_mem hp
  obtain ⟨execution, hexecution, heq⟩ := List.mem_map.mp hmem
  rw [← heq, hinv.convertible execution hexecution] at hcv
  cases hcv

/-! ### When the commands cannot make it panic -/

/-- The driver and `responses` do not panic on the first ones of some commands, whatever happens:
no branch is reached that is marked as unreachable, no builder is missing, and a request that
cannot be converted gives one item, which is an error. -/
structure NeverPanics [DecidableEq B] (P : Type u) (convertible : R → Bool)
    (commands : List (HttpCommand B R)) : Prop where
  configureClient : ∀ command ∈ commands.filter isConfigureClient, configureClientOf command ≠ none
  sendRequest : ∀ command ∈ commands.filter isSendRequest, sendRequestOf command ≠ none
  run : ∀ tr s, (machine convertible).run (init B R P) tr = some s → s.sink <+: commands →
    s.run ≠ .panicked
  loop : ∀ tr s, (machine convertible).run (init B R P) tr = some s → s.sink <+: commands →
    s.loop ≠ .panicked
  error : ∀ tr s, (machine convertible).run (init B R P) tr = some s → s.sink <+: commands →
    (machine convertible).Quiescent internal s → s.executing = [] →
    ∀ k p, (requests s.sink)[k]? = some p → convertible p.2 = false →
      ∃ err, s.yielded.filter (fun response => response.1 = k) = [(k, .error err)]

/-- The requests of the first commands are requests of all of them. -/
theorem mem_requests_mono {sink commands : List (HttpCommand B R)} (h : sink <+: commands)
    {p : ℕ × R} (hp : p ∈ requests sink) :
  p ∈ requests commands
  := by
  obtain ⟨rest, rfl⟩ := h
  rw [requests, List.map_append, uses, usesFrom_append]
  apply List.mem_append_left _ hp

/-- The commands cannot make the driver or `responses` panic exactly when no builder is given
twice among the first three, and all requests can be converted. -/
theorem neverPanics_iff_builders [DecidableEq B] (convertible : R → Bool)
    (commands : List (HttpCommand B R)) :
  NeverPanics P convertible commands ↔
    ((builders commands).take takenLen).Nodup ∧ ∀ p ∈ requests commands, convertible p.2 = true
  := by
  constructor
  · intro h
    have hreach : ∀ {tr} {s : HttpState B R P},
        (machine convertible).run (ofSink P commands) tr = some s →
        (machine convertible).run (init B R P) (commands.map .sink ++ tr) = some s := by
      intro tr s hrun
      rw [Machine.run_append, run_ofSink, Option.bind_some, hrun]
    constructor
    · by_contra hn
      obtain ⟨tr, s, hrun, hsink, hpanicked⟩ :=
        @exists_run_panicked B R P convertible _ commands hn
      apply h.run _ s (hreach hrun) (hsink ▸ List.prefix_rfl) hpanicked
    · intro p hp
      by_contra hcv
      obtain ⟨tr, s, hrun, hsink, hpanicked⟩ :=
        exists_loop_panicked (P := P) hp ((Bool.not_eq_true _).mp hcv)
      apply h.loop _ s (hreach hrun) (hsink ▸ List.prefix_rfl) hpanicked
  · rintro ⟨hn, hcv⟩
    have hconvertible : ∀ {s : HttpState B R P}, s.sink <+: commands →
        ∀ p ∈ requests s.sink, convertible p.2 = true := by
      intro s hpre p hp
      apply hcv p (mem_requests_mono hpre hp)
    constructor
    · intro command hmem
      have hmap := List.mem_map_of_mem (f := configureClientOf) hmem
      rw [map_configureClientOf] at hmap
      obtain ⟨builder, -, heq⟩ := List.mem_map.mp hmap
      simp [← heq]
    · intro command hmem
      have hmap := List.mem_map_of_mem (f := sendRequestOf) hmem
      rw [map_sendRequestOf] at hmap
      obtain ⟨p, -, heq⟩ := List.mem_map.mp hmap
      simp [← heq]
    · intro tr s hrun hpre hpanicked
      apply (TakenInv.of_run hrun).panicked hpanicked
      have hbuilders : builders s.sink <+: builders commands := hpre.filterMap _
      apply (hbuilders.take _).sublist.nodup hn
    · intro tr s hrun hpre
      apply (ResponseInv.of_run hrun).not_panicked (hconvertible hpre)
    · intro tr s hrun hpre _ _ k p hk hfalse
      rw [hconvertible hpre p (List.mem_of_getElem? hk)] at hfalse
      cases hfalse

/-- A command is cloned, and the second one of the two makes the run loop panic.  Or a request is
for a URI that is not an absolute URL, and makes the loop of the executions panic. -/
theorem builder_panics :
  (∃ s, (machine fun uri => decide (uri ≠ "/")).run (HttpState.init ℕ String String)
      [.sink (.configureClient 0), .sink (.configureClient 0), .configureClient (.ok ()),
        .reserveClient, .configureClient (.ok ())] = some s ∧ s.run = .panicked) ∧
    (∃ s, (machine fun uri => decide (uri ≠ "/")).run (HttpState.init ℕ String String)
      [.sink (.sendRequest "/"), .pollDefaultClient, .pollRequest, .zip] = some s ∧
      s.loop = .panicked) ∧
    ¬ NeverPanics String (fun uri => decide (uri ≠ "/"))
      [.configureClient 0, .configureClient 0] ∧
    ¬ NeverPanics String (fun uri => decide (uri ≠ "/"))
      [(.sendRequest "/" : HttpCommand ℕ String)]
  := by
  refine ⟨⟨_, rfl, rfl⟩, ⟨_, rfl, rfl⟩, ?_, ?_⟩
  · intro h
    apply h.run [.sink (.configureClient 0), .sink (.configureClient 0), .configureClient (.ok ()),
      .reserveClient, .configureClient (.ok ())] _ rfl List.prefix_rfl rfl
  · intro h
    apply h.loop [.sink (.sendRequest "/"), .pollDefaultClient, .pollRequest, .zip] _ rfl
      List.prefix_rfl rfl

end HttpState

end Http

end Cyclers
