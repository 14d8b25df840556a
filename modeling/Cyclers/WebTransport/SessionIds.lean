import Cyclers.Async.Registry
import Cyclers.WebTransport.Source

/-!
# Session ids

A session is registered, under its stable id, before it is yielded, and stays registered when it
is terminated.  The transport may use a stable id again once the session that had it is held no
more, which happens only when a stream of sessions is dropped before it has registered the session.
So no two sessions are yielded under one id, and an id is always that of its session.
-/

open Async

namespace Cyclers

namespace WebTransport

universe u

variable {F : Type u}

/-- The session that a stream of sessions holds: one that is connected, or one that is registered
and is to be yielded. -/
def SourceTask.holding : SourceTask → Holding Session
  | .insertSession session _ => .made session
  | .item (.session (.ok (session, _))) => .registered session
  | _ => .nothing

/-- The transport connects a session. -/
def SourceEvent.connects : SourceEvent F → Bool
  | .connected _ (.ok _) => true
  | _ => false

namespace SourceState

/-- The sessions that the streams of the source hold. -/
def holds (s : SourceState F) : ℕ → Holding Session :=
  fun j => (s.streams j).task.holding

/-- A session is held in memory: it is registered, or a stream of sessions holds it. -/
def Held (s : SourceState F) (session : Session) : Prop :=
  (∃ id, s.sessionMap id = some session) ∨ ∃ j, (s.holds j).value = some session

/-- The stable id of a session that is connected differs from that of every session held in
memory. -/
def FreshId (s : SourceState F) : SourceEvent F → Prop
  | .connected _ (.ok stableId) => ∀ session, s.Held session → session.stableId ≠ stableId
  | _ => True

/-- The sessions are registered under their ids, and each before it is yielded. -/
def Registered (s : SourceState F) : Prop :=
  Registry Session.id s.holds s.sessionMap s.sessionsYielded

/-- Changing a stream changes what it holds. -/
theorem holds_set (s : SourceState F) (j : ℕ) (r : SourceStream) :
  (s.set j r).holds = Function.update s.holds j r.task.holding
  := by
  funext j'
  apply Function.apply_update fun _ (r : SourceStream) => r.task.holding

theorem holds_of_task {s : SourceState F} {j : ℕ} {task : SourceTask} (h : s.task j = some task) :
  s.holds j = task.holding
  := by
  rw [holds, (task_eq_some.mp h).2]

theorem Registered.init :
  Registered (init F)
  := Registry.empty Session.id

/-- A stream goes on to something for which it holds no session. -/
theorem Registered.set {s : SourceState F} (h : Registered s) (j : ℕ) {r : SourceStream}
    (hr : r.task.holding = .nothing) :
  Registered (s.set j r)
  := by
  rw [Registered, holds_set, hr]
  apply h.drop j

/-- An event keeps the sessions registered. -/
theorem Registered.step {s t : SourceState F} {e : SourceEvent F} (h : Registered s)
    (hf : s.FreshId e) (hs : Step s e t) :
  Registered t
  := by
  cases hs with
  | connected j client url stableId ht =>
      rw [Registered, setTask, holds_set]
      apply Registry.make h j
      · apply Option.eq_none_iff_forall_ne_some.mpr
        intro session hget
        have hid := h.key_eq _ session hget
        exact hf session (.inl ⟨_, hget⟩) (congrArg SessionId.stableId hid)
      · intro j' session hv heq
        exact hf session (.inr ⟨j', hv⟩) (congrArg SessionId.stableId heq)
  | insertSession j session url ht =>
      rw [Registered, setTask, holds_set]
      apply Registry.register h
      exact holds_of_task ht
  | yieldSession j session url ht =>
      rw [Registered, setTask, holds_set]
      apply Registry.give h
      exact holds_of_task ht
  | obtain method => exact Registered.set (s := { s with count := s.count + 1 }) h _ rfl
  | skip j client command ht hget =>
      apply h.set
      rw [(task_eq_some.mp ht).2]
      rfl
  | zip j client i url ht =>
      exact Registered.set (s := { s with effects := s.effects ++ [(j, i)] }) h _ rfl
  | created j i quicId sendOrder ht =>
      exact Registered.set (s := { s with effects := s.effects ++ [(j, i)] }) h _ rfl
  | panicked j i quicId sendOrder ht =>
      exact Registered.set (s := { s with effects := s.effects ++ [(j, i)] }) h _ rfl
  | insertStream j quicId method sessionId ht hm =>
      exact Registered.set (s := { s with streamMap := _ }) h _ rfl
  | yieldStream j id method sessionId ht hm =>
      exact Registered.set (s := { s with streamsYielded := _ }) h _ rfl
  | sink command => exact h
  | client client => exact h
  | start hn => exact h
  | terminate terminated closing failed => exact h
  | close command hc => exact h
  | sendBytes command w sendEnded failed hget => exact h
  | sendBytesSkip w => exact h
  | _ => apply h.set _ rfl

/-- The sessions are registered in every state reached from one in which they are. -/
theorem Registered.run {s t : SourceState F} {tr : List (SourceEvent F)} (h : Registered s)
    (hf : (machine F).Along FreshId s tr) (hr : (machine F).run s tr = some t) :
  Registered t
  := by
  apply (machine F).run_invariant_along h _ hr hf
  intro s e t hs he ht
  apply hs.step he (step_of_machine ht)

/-- What has been yielded stays yielded. -/
theorem sessionsYielded_of_step {s t : SourceState F} {e : SourceEvent F} (hs : Step s e t) :
  s.sessionsYielded ⊆ t.sessionsYielded
  := by
  cases hs with
  | yieldSession j session url ht => exact List.subset_append_left _ _
  | _ => exact List.Subset.refl _

theorem sessionsYielded_of_run {s t : SourceState F} {tr : List (SourceEvent F)}
    (hr : (machine F).run s tr = some t) :
  s.sessionsYielded ⊆ t.sessionsYielded
  := by
  apply (machine F).run_invariant (P := fun t => s.sessionsYielded ⊆ t.sessionsYielded)
    (List.Subset.refl _) _ hr
  intro t e u h hu
  apply List.Subset.trans h (sessionsYielded_of_step (step_of_machine hu))

/-- The ids of the sessions yielded are distinct, and in every later state each is registered for
the session for which it was yielded. -/
theorem sessionIds_distinct {s t : SourceState F} {tr tr' : List (SourceEvent F)}
    (hs : (machine F).run (SourceState.init F) tr = some s)
    (hfs : (machine F).Along FreshId (SourceState.init F) tr)
    (ht : (machine F).run s tr' = some t) (hft : (machine F).Along FreshId s tr') :
  (s.sessionsYielded.map Prod.fst).Nodup ∧
    ∀ id session, (id, session) ∈ s.sessionsYielded →
      session.id = id ∧ t.sessionMap id = some session
  := by
  have hregs : Registered s := Registered.init.run hfs hs
  have hregt : Registered t := hregs.run hft ht
  refine ⟨hregs.nodup, ?_⟩
  intro id session hmem
  have hget := hregt.entry (id, session) (sessionsYielded_of_run ht hmem)
  exact ⟨hregt.key_eq id session hget, hget⟩

/-- Events that connect no session are of no matter to the stable ids. -/
theorem along_freshId {tr : List (SourceEvent F)} (h : ∀ e ∈ tr, e.connects = false)
    (s : SourceState F) :
  (machine F).Along FreshId s tr
  := by
  apply (machine F).along_of_forall
  intro e he s
  cases e with
  | connected j result =>
      cases result with
      | ok stableId => cases h _ he
      | error err => trivial
  | _ => trivial

/-- A stable id may be used again when the session that had it is dropped, as it has not been
registered.  The next session has another one. -/
theorem freshId_again :
  (machine Unit).Along FreshId (SourceState.init Unit)
    ([.start, .obtain .sessionReady, .obtain .sessionReady, .client none,
      .sink (.establishSession ⟨"a"⟩), .pollClient 0, .pollCommand 0, .zip 0] ++
        (.connected 0 (.ok 7) :: ([.drop 0, .pollClient 1, .pollCommand 1, .zip 1] ++
          (.connected 1 (.ok 7) :: ([.insertSession 1, .yield 1, .client none,
            .sink (.establishSession ⟨"b"⟩), .pollClient 1, .pollCommand 1, .zip 1] ++
              (.connected 1 (.ok 8) :: [.insertSession 1, .yield 1]))))))
  := by
  have hnone : ∀ s : SourceState Unit, s.sessionMap = (fun _ => none) →
      (∀ j, s.holds j = .nothing) → s.FreshId (.connected 0 (.ok 7)) := by
    intro s hmap hholds session hheld
    rcases hheld with ⟨id, hget⟩ | ⟨j, hv⟩
    · rw [hmap] at hget
      cases hget
    · rw [hholds] at hv
      cases hv
  have hother : ∀ s : SourceState Unit,
      s.sessionMap = Function.update (fun _ => none) ⟨7⟩ (some ⟨1, 7⟩) →
      (∀ j, s.holds j = .nothing) → s.FreshId (.connected 1 (.ok 8)) := by
    intro s hmap hholds session hheld
    rcases hheld with ⟨id, hget⟩ | ⟨j, hv⟩
    · rw [hmap, Function.update_apply] at hget
      split at hget <;> cases hget
      decide
    · rw [hholds] at hv
      cases hv
  apply (machine Unit).along_append.mpr
  refine ⟨along_freshId (by decide) _, ?_⟩
  rintro s ⟨⟩
  refine ⟨hnone _ rfl ?_, ?_⟩
  · rintro (_ | _ | j) <;> rfl
  rintro s ⟨⟩
  apply (machine Unit).along_append.mpr
  refine ⟨along_freshId (by decide) _, ?_⟩
  rintro s ⟨⟩
  refine ⟨hnone _ rfl ?_, ?_⟩
  · rintro (_ | _ | j) <;> rfl
  rintro s ⟨⟩
  apply (machine Unit).along_append.mpr
  refine ⟨along_freshId (by decide) _, ?_⟩
  rintro s ⟨⟩
  refine ⟨hother _ rfl ?_, ?_⟩
  · rintro (_ | _ | j) <;> rfl
  rintro s ⟨⟩
  apply along_freshId (by decide)

/-- Two sessions are yielded, one of them under an id that is used again, and that one stays
registered when it is terminated. -/
theorem sessionIds_distinct_again :
  ∃ s t : SourceState Unit,
    (machine Unit).run (SourceState.init Unit)
      ([.start, .obtain .sessionReady, .obtain .sessionReady, .client none,
        .sink (.establishSession ⟨"a"⟩), .pollClient 0, .pollCommand 0, .zip 0] ++
          (.connected 0 (.ok 7) :: ([.drop 0, .pollClient 1, .pollCommand 1, .zip 1] ++
            (.connected 1 (.ok 7) :: ([.insertSession 1, .yield 1, .client none,
              .sink (.establishSession ⟨"b"⟩), .pollClient 1, .pollCommand 1, .zip 1] ++
                (.connected 1 (.ok 8) :: [.insertSession 1, .yield 1])))))) = some s ∧
    (machine Unit).run s [.sink (.terminateSession ⟨⟨7⟩, 0, ""⟩), .terminate, .terminate, .terminate,
      .close] = some t ∧
    s.sessionsYielded = [(⟨7⟩, ⟨1, 7⟩), (⟨8⟩, ⟨2, 8⟩)] ∧ t.closed = [⟨⟨7⟩, 0, ""⟩] ∧
    (s.sessionsYielded.map Prod.fst).Nodup ∧ t.sessionMap ⟨7⟩ = some ⟨1, 7⟩
  := by
  have hfresh := @along_freshId Unit
    [.sink (.terminateSession ⟨⟨7⟩, 0, ""⟩), .terminate, .terminate, .terminate, .close] (by decide)
  refine ⟨_, _, rfl, rfl, rfl, rfl, ?_⟩
  have hdistinct := @sessionIds_distinct Unit _ _ _
    [.sink (.terminateSession ⟨⟨7⟩, 0, ""⟩), .terminate, .terminate, .terminate, .close]
    rfl freshId_again rfl (hfresh _)
  exact ⟨hdistinct.1, (hdistinct.2 ⟨7⟩ ⟨1, 7⟩ List.mem_cons_self).2⟩

end SourceState

end WebTransport

end Cyclers
