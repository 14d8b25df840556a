import Mathlib.Data.List.Induction
import Mathlib.Logic.Basic

/-!
# Machines

`Machine σ α` is a machine with states `σ` and events `α`: `m.step s a` is the state
after the event `a` happens in `s`, when it can.  `m.run s tr` is the state after the
events of the trace `tr` happen one after another from `s`, when they can.  Choices of
the environment, of the scheduler and of the parties are all made by the events, so a
statement about every interleaving is a statement about every trace.

A `Simulation` lets one machine follow another one along a relation between their states:
each step of the one that is followed is, for the other, a step or none at all.
-/

namespace Async

/-- The result of polling a future or a stream: it is ready with a value, or it is
pending. -/
inductive Poll (α : Type*) where
  | pending : Poll α
  | ready : α → Poll α
  deriving DecidableEq

/-- A machine: `step s a` is the state after the event `a` happens in the state `s`, and
`none` when `a` cannot happen in `s`. -/
structure Machine (σ : Type*) (α : Type*) where
  step : σ → α → Option σ

namespace Machine

variable {σ α : Type*} (m : Machine σ α)

/-- The state after the events of a trace happen one after another, and `none` when one
of them cannot happen. -/
def run : σ → List α → Option σ
  | s, [] => some s
  | s, a :: tr => (m.step s a).bind fun t => run t tr

@[simp]
theorem run_nil (s : σ) :
  m.run s [] = some s
  := rfl

@[simp]
theorem run_cons (s : σ) (a : α) (tr : List α) :
  m.run s (a :: tr) = (m.step s a).bind fun t => m.run t tr
  := rfl

/-- Running along an appended trace is running along the first part and then along the
second. -/
theorem run_append (s : σ) (tr tr' : List α) :
  m.run s (tr ++ tr') = (m.run s tr).bind fun t => m.run t tr'
  := by
  induction tr generalizing s with
  | nil => rfl
  | cons a tr ih =>
      rw [List.cons_append, run_cons, run_cons, Option.bind_assoc]
      congr 1
      funext t
      apply ih

/-- Running along a trace and one more event. -/
theorem run_concat (s : σ) (tr : List α) (a : α) :
  m.run s (tr ++ [a]) = (m.run s tr).bind fun t => m.step t a
  := by
  rw [run_append]
  congr 1
  funext t
  rw [run_cons]
  cases m.step t a <;> rfl

/-- A run along an appended trace passes through a state between the two parts. -/
theorem exists_of_run_append {s t : σ} {tr tr' : List α} (h : m.run s (tr ++ tr') = some t) :
  ∃ u, m.run s tr = some u ∧ m.run u tr' = some t
  := by
  rw [run_append] at h
  apply Option.bind_eq_some_iff.mp h

/-- A run along a trace with a first event begins with a step. -/
theorem exists_of_run_cons {s t : σ} {a : α} {tr : List α} (h : m.run s (a :: tr) = some t) :
  ∃ u, m.step s a = some u ∧ m.run u tr = some t
  := Option.bind_eq_some_iff.mp h

/-- What relates the empty trace to the state `s`, and is kept by every step of a run
from `s`, relates every trace to the state it leads to from `s`. -/
theorem run_induction {s : σ} {P : List α → σ → Prop} (nil : P [] s)
    (step : ∀ tr t a u, m.run s tr = some t → P tr t → m.step t a = some u → P (tr ++ [a]) u) :
  ∀ tr t, m.run s tr = some t → P tr t
  := by
  intro tr
  induction tr using List.reverseRecOn with
  | nil =>
      intro t h
      obtain rfl := Option.some.inj h
      exact nil
  | append_singleton tr a ih =>
      intro u h
      rw [run_concat] at h
      obtain ⟨t, ht, hu⟩ := Option.bind_eq_some_iff.mp h
      apply step tr t a u ht (ih t ht) hu

/-- What holds in the state `s` and is kept by every step holds in every state reached
from `s`. -/
theorem run_invariant {s : σ} {P : σ → Prop} (init : P s)
    (step : ∀ t a u, P t → m.step t a = some u → P u) {tr : List α} {t : σ}
    (h : m.run s tr = some t) :
  P t
  := by
  apply m.run_induction (P := fun _ => P) init _ tr t h
  intro _ t a u _ ht hu
  apply step t a u ht hu

/-- Every event of a trace meets `P` in the state in which it happens, when the trace runs from a
state. -/
def Along (P : σ → α → Prop) : σ → List α → Prop
  | _, [] => True
  | s, a :: tr => P s a ∧ ∀ t, m.step s a = some t → Along P t tr

/-- The events of an appended trace meet `P` when those of the first part do, and then those of
the second part. -/
theorem along_append {P : σ → α → Prop} {s : σ} {tr tr' : List α} :
  m.Along P s (tr ++ tr') ↔ m.Along P s tr ∧ ∀ t, m.run s tr = some t → m.Along P t tr'
  := by
  induction tr generalizing s with
  | nil => simp [Along]
  | cons a tr ih =>
      rw [List.cons_append, Along, Along, and_assoc]
      apply and_congr_right
      intro _
      cases h : m.step s a with
      | none => simp [h]
      | some u => simp [h, ih]

/-- Events that meet `P` in every state meet it along every run. -/
theorem along_of_forall {P : σ → α → Prop} {tr : List α} (h : ∀ a ∈ tr, ∀ s, P s a) (s : σ) :
  m.Along P s tr
  := by
  induction tr generalizing s with
  | nil => trivial
  | cons a tr ih =>
      rw [List.forall_mem_cons] at h
      refine ⟨h.1 s, ?_⟩
      intro t _
      apply ih h.2

/-- What holds in the state `s` and is kept by every step that meets `P` holds after every run
from `s` whose steps all meet `P`. -/
theorem run_invariant_along {P : σ → α → Prop} {Q : σ → Prop} {s : σ} (init : Q s)
    (step : ∀ t a u, Q t → P t a → m.step t a = some u → Q u) {tr : List α} {t : σ}
    (h : m.run s tr = some t) (ha : m.Along P s tr) :
  Q t
  := by
  induction tr generalizing s with
  | nil =>
      obtain rfl := Option.some.inj h
      exact init
  | cons a tr ih =>
      obtain ⟨u, hu, h⟩ := m.exists_of_run_cons h
      apply ih (step s a u init ha.1 hu) h (ha.2 u hu)

/-- A state in which none of the events `I` can happen. -/
def Quiescent (I : α → Prop) (s : σ) : Prop :=
  ∀ a, I a → m.step s a = none

/-- An event that can happen in a quiescent state is not one of the events `I`. -/
theorem Quiescent.not_step {I : α → Prop} {s t : σ} {a : α} (h : m.Quiescent I s)
    (hs : m.step s a = some t) :
  ¬ I a
  := by
  intro ha
  rw [h a ha] at hs
  cases hs

/-- When the events `I` cannot go on for ever, as `μ` decreases with each of them, then those of
them that meet `P` lead from any state to one in which there are no more of them. -/
theorem exists_quiescent_along {I : α → Prop} (P : σ → α → Prop) (μ : σ → ℕ)
    (dec : ∀ s a t, I a → m.step s a = some t → μ t < μ s) (s : σ) :
  ∃ tr t, (∀ a ∈ tr, I a) ∧ m.Along P s tr ∧ m.run s tr = some t ∧
    ∀ a, I a → P t a → m.step t a = none
  := by
  induction h : μ s using Nat.strongRecOn generalizing s with
  | ind k ih =>
      by_cases hq : ∀ a, I a → P s a → m.step s a = none
      · use [], s
        exact ⟨nofun, trivial, rfl, hq⟩
      · simp only [not_forall] at hq
        obtain ⟨a, ha, hp, hs⟩ := hq
        obtain ⟨t, ht⟩ := Option.ne_none_iff_exists'.mp hs
        obtain ⟨tr, u, htr, halong, hu, hq⟩ := ih (μ t) (h ▸ dec s a t ha ht) t rfl
        use a :: tr, u
        refine ⟨?_, ⟨hp, ?_⟩, ?_, hq⟩
        · rw [List.forall_mem_cons]
          exact ⟨ha, htr⟩
        · intro t' ht'
          rw [ht] at ht'
          cases ht'
          exact halong
        · rw [run_cons, ht]
          exact hu

/-- When the events `I` cannot go on for ever, as `μ` decreases with each of them, they lead
from any state to a quiescent one. -/
theorem exists_quiescent {I : α → Prop} (μ : σ → ℕ)
    (dec : ∀ s a t, I a → m.step s a = some t → μ t < μ s) (s : σ) :
  ∃ tr t, (∀ a ∈ tr, I a) ∧ m.run s tr = some t ∧ m.Quiescent I t
  := by
  obtain ⟨tr, t, htr, -, ht, hq⟩ := m.exists_quiescent_along (fun _ _ => True) μ dec s
  exact ⟨tr, t, htr, ht, fun a ha => hq a ha trivial⟩

/-- `Simulation m m' R sees`: the machine `m'` follows `m` along the relation `R`, when
only the events that `sees` keeps are observed. -/
structure Simulation {σ α τ β : Type*} (m : Machine σ α) (m' : Machine τ β)
    (R : σ → τ → Prop) (sees : α → Option β) : Prop where
  stutter : ∀ s s' a t, R s s' → m.step s a = some t → sees a = none → R t s'
  follow : ∀ s s' a t b, R s s' → m.step s a = some t → sees a = some b →
    ∃ t', m'.step s' b = some t' ∧ R t t'

/-- A run is followed along a simulation by a run along the events that are seen. -/
theorem Simulation.run {τ β : Type*} {m : Machine σ α} {m' : Machine τ β} {R : σ → τ → Prop}
    {sees : α → Option β} (h : Simulation m m' R sees) {s t : σ} {s' : τ} {tr : List α}
    (hR : R s s') (hr : m.run s tr = some t) :
  ∃ t', m'.run s' (tr.filterMap sees) = some t' ∧ R t t'
  := by
  induction tr generalizing s s' with
  | nil =>
      obtain rfl := Option.some.inj hr
      use s', rfl
  | cons a tr ih =>
      obtain ⟨u, hu, hr⟩ := m.exists_of_run_cons hr
      cases hb : sees a with
      | none =>
          rw [List.filterMap_cons_none hb]
          apply ih (h.stutter s s' a u hR hu hb) hr
      | some b =>
          obtain ⟨u', hu', hR'⟩ := h.follow s s' a u b hR hu hb
          obtain ⟨t', ht', hRt⟩ := ih hR' hr
          use t'
          rw [List.filterMap_cons_some hb, run_cons, hu']
          use ht', hRt

end Machine

end Async
