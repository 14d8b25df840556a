import Cyclers.Async.Machine

/-!
# Parts and progress of machines

A machine may be made of others that step together.  `Part m m' part shows shows'` says that `m'` is
a part of `m`: what it takes of a state is found by `part`, it makes a run of its own with each step
of `m`, and what the events of the run show is what the step shows.  What holds of every run of the
part then holds of every run of the whole.

When each step lessens a measure no run is longer than it, so every run that is not cut short comes
to a state in which nothing can happen.
-/

namespace Async

namespace Machine

variable {σ α τ β γ : Type*}

/-- The machine `m'` is a part of `m`: with each step of `m` it makes a run that shows the same. -/
structure Part (m : Machine σ α) (m' : Machine τ β) (part : σ → τ) (shows : α → List γ)
    (shows' : β → List γ) : Prop where
  step : ∀ s a t, m.step s a = some t →
    ∃ tr, m'.run (part s) tr = some (part t) ∧ tr.flatMap shows' = shows a

/-- A part makes a run with each run of the whole, and it shows the same. -/
theorem Part.run {m : Machine σ α} {m' : Machine τ β} {part : σ → τ} {shows : α → List γ}
    {shows' : β → List γ} (h : Part m m' part shows shows') {s t : σ} {tr : List α}
    (hr : m.run s tr = some t) :
  ∃ tr', m'.run (part s) tr' = some (part t) ∧ tr'.flatMap shows' = tr.flatMap shows
  := by
  induction tr generalizing s with
  | nil =>
      obtain rfl := Option.some.inj hr
      use []
      exact ⟨rfl, rfl⟩
  | cons a tr ih =>
      obtain ⟨u, hu, hr⟩ := m.exists_of_run_cons hr
      obtain ⟨tr₁, hrun₁, hshows₁⟩ := h.step s a u hu
      obtain ⟨tr₂, hrun₂, hshows₂⟩ := ih hr
      use tr₁ ++ tr₂
      constructor
      · rw [run_append, hrun₁]
        exact hrun₂
      · rw [List.flatMap_append, hshows₁, hshows₂, List.flatMap_cons]

/-- A run is no longer than what its steps take from a measure. -/
theorem length_add_le {m : Machine σ α} (μ : σ → ℕ)
    (dec : ∀ s a t, m.step s a = some t → μ t < μ s) {s t : σ} {tr : List α}
    (h : m.run s tr = some t) :
  tr.length + μ t ≤ μ s
  := by
  induction tr generalizing s with
  | nil =>
      obtain rfl := Option.some.inj h
      exact Nat.le_of_eq (Nat.zero_add _)
  | cons a tr ih =>
      obtain ⟨u, hu, h⟩ := m.exists_of_run_cons h
      have hlt := dec s a u hu
      have hle := ih h
      rw [List.length_cons]
      omega

/-- When each step lessens a measure, and what cannot go on is at its goal, every state goes on to
its goal. -/
theorem exists_run {m : Machine σ α} (μ : σ → ℕ)
    (dec : ∀ s a t, m.step s a = some t → μ t < μ s) {P Q : σ → Prop}
    (keeps : ∀ s a t, P s → m.step s a = some t → P t)
    (goal : ∀ s, P s → (∀ a, m.step s a = none) → Q s) {s : σ} (h : P s) :
  ∃ tr t, m.run s tr = some t ∧ Q t
  := by
  obtain ⟨tr, t, -, hr, hq⟩ := m.exists_quiescent (I := fun _ => True) μ
    (fun s a t _ hs => dec s a t hs) s
  use tr, t, hr
  apply goal t (m.run_invariant h keeps hr)
  intro a
  apply hq a trivial

end Machine

end Async
