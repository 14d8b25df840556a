import Cyclers.Async.Machine

/-!
# Readiness

A runtime keeps, for a descriptor that does not block, whether it takes it to be ready.  When
something becomes available the runtime is to be told so, and wakes the task that waits; and it may
be told of the descriptor at any other time, when something else about it has changed or nothing
has.  A task that finds the descriptor ready gets a guard, and when it has found nothing after all it
clears the readiness, with the guard, so that what has been told since the guard was given is not
lost.

How a runtime does this is left open: `Readiness` is what a task sees of it, and `Laws` is what is
documented.  A runtime that counts what it is told keeps the laws.
-/

namespace Async

/-- What a runtime keeps for a descriptor, in states of type `σ`: how it is at first; something
becomes available; the runtime is told so, when it is still to be; the runtime is told of something
else; a task asks whether the descriptor is ready, and gets a guard of type `γ`, or is to be woken;
a task clears the readiness with a guard; and whether the task that is to be woken has been. -/
structure Readiness (σ γ ε : Type*) where
  new : σ
  raise : σ → σ
  deliver : σ → Option σ
  report : ε → σ → Option σ
  pollReady : σ → Poll γ × σ
  clear : γ → σ → σ
  woken : σ → Bool

namespace Readiness

variable {σ γ ε : Type*}

/-- What is documented of a runtime.  It tells of the descriptor (`Tells`) once something has become
available: it takes the descriptor to be ready, or it is still to be told; it goes on to do so until
the readiness is cleared; and when it has been told of everything it wakes the task that waits.  It
takes the descriptor to be ready as long as a guard may be used (`Guards`).  What becomes available,
or is told, after a guard has been given is newer than the guard (`Newer`), and to clear the
readiness with the guard does not touch it. -/
structure Laws (r : Readiness σ γ ε) (Tells : σ → Prop) (Guards Newer : γ → σ → Prop) : Prop where
  raise : ∀ s, Tells (r.raise s)
  deliver : ∀ {s t}, r.deliver s = some t → Tells t
  report : ∀ {e s t}, r.report e s = some t → Tells s → Tells t
  poll : ∀ {s}, Tells s → Tells (r.pollReady s).2
  woken : ∀ {s}, Tells s → r.deliver s = none → r.woken s = true
  ready : ∀ {g s t}, r.pollReady s = (.ready g, t) → Guards g t
  guards_raise : ∀ {g s}, Guards g s → Guards g (r.raise s)
  guards_deliver : ∀ {g s t}, r.deliver s = some t → Guards g s → Guards g t
  guards_report : ∀ {e g s t}, r.report e s = some t → Guards g s → Guards g t
  tells : ∀ {g s}, Guards g s → Tells s
  newer_raise : ∀ {g s}, Guards g s → Newer g (r.raise s)
  newer_deliver : ∀ {g s t}, r.deliver s = some t → Guards g s → Newer g t
  newer_report : ∀ {e g s t}, r.report e s = some t → Newer g s → Newer g t
  clear : ∀ {g s}, Newer g s → Tells (r.clear g s)

/-! ### Counting what is told -/

/-- The readiness of a runtime that counts what it is told: whether it is still to be told of
something, whether it takes the descriptor to be ready, how often it has been told of it, and
whether a task is to be woken. -/
structure Ticks where
  edge : Bool
  isReady : Bool
  tick : ℕ
  waker : Bool
  deriving DecidableEq

/-- A guard is the count when it was given, and readiness is cleared only when nothing has been told
since.  What else the runtime is told of may be that the descriptor is ready, or not. -/
def ticks : Readiness Ticks ℕ Bool where
  new := ⟨false, false, 0, false⟩
  raise s := { s with edge := true }
  deliver s := if s.edge then some ⟨false, true, s.tick + 1, false⟩ else none
  report readable s :=
    some ⟨s.edge, s.isReady || readable, s.tick + 1, s.waker && !readable⟩
  pollReady s :=
    if s.isReady then (.ready s.tick, { s with waker := false })
    else (.pending, { s with waker := true })
  clear tick s := if s.tick = tick then { s with isReady := false } else s
  woken s := !s.waker

namespace Ticks

/-- The runtime is still to be told, or takes the descriptor to be ready and has woken the task. -/
def Tells (s : Ticks) : Prop :=
  s.edge = true ∨ (s.isReady = true ∧ s.waker = false)

/-- The runtime takes the descriptor to be ready, since the count was `tick`. -/
structure Guards (tick : ℕ) (s : Ticks) : Prop where
  isReady : s.isReady = true
  waker : s.waker = false
  le : tick ≤ s.tick

/-- Moreover it has been told of something since, or is still to be. -/
def Newer (tick : ℕ) (s : Ticks) : Prop :=
  s.Guards tick ∧ (s.edge = true ∨ tick < s.tick)

theorem deliver_eq_some {s t : Ticks} (h : ticks.deliver s = some t) :
  s.edge = true ∧ t = ⟨false, true, s.tick + 1, false⟩
  := by
  simp only [ticks] at h
  split at h
  · exact ⟨‹_›, (Option.some.inj h).symm⟩
  · cases h

theorem Guards.report {tick : ℕ} {s : Ticks} (h : s.Guards tick) (readable : Bool) :
  Guards tick ⟨s.edge, s.isReady || readable, s.tick + 1, s.waker && !readable⟩
  := by
  refine ⟨?_, ?_, Nat.le_succ_of_le h.le⟩
  · change (s.isReady || readable) = true
    rw [h.isReady, Bool.true_or]
  · change (s.waker && !readable) = false
    rw [h.waker, Bool.false_and]

/-- To clear the readiness loses nothing that has been told since. -/
theorem Newer.clear {tick : ℕ} {s : Ticks} (h : s.Newer tick) :
  (ticks.clear tick s).Tells
  := by
  obtain ⟨hguards, hnewer⟩ := h
  simp only [ticks]
  split
  · rename_i htick
    rcases hnewer with hedge | hlt
    · exact Or.inl hedge
    · cases Nat.ne_of_gt hlt htick
  · exact Or.inr ⟨hguards.isReady, hguards.waker⟩

end Ticks

/-- A runtime that counts what it is told keeps the laws. -/
theorem ticks_laws :
  ticks.Laws Ticks.Tells Ticks.Guards Ticks.Newer where
  raise _ := Or.inl rfl
  deliver h := by
    obtain ⟨-, rfl⟩ := Ticks.deliver_eq_some h
    exact Or.inr ⟨rfl, rfl⟩
  report := by
    rintro readable s t ⟨⟩ (hedge | ⟨hready, hwaker⟩)
    · exact Or.inl hedge
    · right
      simp [hready, hwaker]
  poll := by
    rintro s (hedge | ⟨hready, hwaker⟩)
    · left
      simp only [ticks]
      split <;> exact hedge
    · right
      simp [ticks, hready]
  woken := by
    rintro s (hedge | ⟨-, hwaker⟩) hnone
    · simp [ticks, hedge] at hnone
    · simp [ticks, hwaker]
  ready := by
    intro tick s t h
    simp only [ticks] at h
    split at h <;> cases h
    exact ⟨‹_›, rfl, Nat.le_refl _⟩
  guards_raise h := ⟨h.isReady, h.waker, h.le⟩
  guards_deliver h hguards := by
    obtain ⟨-, rfl⟩ := Ticks.deliver_eq_some h
    exact ⟨rfl, rfl, Nat.le_succ_of_le hguards.le⟩
  guards_report := by
    rintro readable tick s t ⟨⟩ h
    apply h.report
  tells h := Or.inr ⟨h.isReady, h.waker⟩
  newer_raise h := ⟨⟨h.isReady, h.waker, h.le⟩, Or.inl rfl⟩
  newer_deliver h hguards := by
    obtain ⟨-, rfl⟩ := Ticks.deliver_eq_some h
    exact ⟨⟨rfl, rfl, Nat.le_succ_of_le hguards.le⟩, Or.inr (Nat.lt_succ_of_le hguards.le)⟩
  newer_report := by
    rintro readable tick s t ⟨⟩ ⟨hguards, -⟩
    exact ⟨hguards.report readable, Or.inr (Nat.lt_succ_of_le hguards.le)⟩
  clear h := h.clear

end Readiness

end Async
