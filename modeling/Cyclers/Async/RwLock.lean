import Mathlib.Data.List.Basic

/-!
# Readers-writer locks

`RwLock ρ ω` is a fair readers-writer lock for readers `ρ` and writers `ω`.  Those who ask
for a guard are served in the order they ask: a reader gets a guard at once when no writer
holds the lock and no one waits, a writer when no one holds the lock, and when a guard is
dropped the guards that have become free go to those who wait, from the first one on.  A
writer that waits therefore blocks the readers that ask after it, and itself waits until
every reader has dropped its guard.
-/

namespace Async

/-- A lock: the readers that hold a guard, the writer that does, and those who wait, in the
order they asked.  Someone waits only while the lock is held, and the first one to wait is a
reader only while it is held by a writer. -/
structure RwLock (ρ ω : Type*) where
  readers : List ρ
  writer : Option ω
  waiting : List (ρ ⊕ ω)
  exclusive : writer ≠ none → readers = []
  busy : waiting ≠ [] → writer ≠ none ∨ readers ≠ []
  first : writer = none → ∀ r ws, waiting ≠ .inl r :: ws

namespace RwLock

variable {ρ ω : Type*}

/-- A lock that no one holds. -/
def new (ρ ω : Type*) : RwLock ρ ω where
  readers := []
  writer := none
  waiting := []
  exclusive _ := rfl
  busy h := absurd rfl h
  first _ _ _ := nofun

/-- Give guards to those who wait, from the first one on, when `readers` hold a guard and no
writer does. -/
def grant (readers : List ρ) : List (ρ ⊕ ω) → RwLock ρ ω
  | [] => ⟨readers, none, [], fun h => absurd rfl h, fun h => absurd rfl h, fun _ _ _ => nofun⟩
  | .inl r :: ws => grant (r :: readers) ws
  | .inr w :: ws =>
      if h : readers = [] then
        ⟨[], some w, ws, fun _ => rfl, fun _ => .inl nofun, nofun⟩
      else
        ⟨readers, none, .inr w :: ws, fun h => absurd rfl h, fun _ => .inr h, fun _ _ _ => nofun⟩

/-- A reader asks for a guard. -/
def read (l : RwLock ρ ω) (r : ρ) : RwLock ρ ω :=
  if h : l.writer.isNone = true ∧ l.waiting.isEmpty = true then
    { l with
      readers := r :: l.readers
      exclusive := fun hw => absurd (Option.isNone_iff_eq_none.mp h.1) hw
      busy := fun _ => .inr nofun }
  else
    { l with
      waiting := l.waiting ++ [.inl r]
      busy := by
        intro _
        by_cases hw : l.waiting = []
        · left
          intro hn
          apply h
          rw [hn, hw]
          exact ⟨rfl, rfl⟩
        · apply l.busy hw
      first := by
        intro hn r' ws heq
        cases hw : l.waiting with
        | nil =>
            apply h
            rw [hn, hw]
            exact ⟨rfl, rfl⟩
        | cons x xs =>
            rw [hw, List.cons_append, List.cons.injEq] at heq
            apply l.first hn r' xs
            rw [hw, heq.1] }

/-- A writer asks for a guard. -/
def write (l : RwLock ρ ω) (w : ω) : RwLock ρ ω :=
  if h : l.writer.isNone = true ∧ l.readers.isEmpty = true then
    { l with
      writer := some w
      exclusive := fun _ => List.isEmpty_iff.mp h.2
      busy := fun _ => .inl nofun
      first := nofun }
  else
    { l with
      waiting := l.waiting ++ [.inr w]
      busy := by
        intro _
        by_contra hf
        rw [not_or, not_not, not_not] at hf
        apply h
        rw [hf.1, hf.2]
        exact ⟨rfl, rfl⟩
      first := by
        intro hn r ws heq
        cases hw : l.waiting with
        | nil =>
            rw [hw] at heq
            cases heq
        | cons x xs =>
            rw [hw, List.cons_append, List.cons.injEq] at heq
            apply l.first hn r xs
            rw [hw, heq.1] }

/-- A reader drops its guard. -/
def dropRead [DecidableEq ρ] (l : RwLock ρ ω) (r : ρ) : RwLock ρ ω :=
  match l.writer with
  | none => grant (l.readers.erase r) l.waiting
  | some _ => l

/-- The writer drops its guard. -/
def dropWrite (l : RwLock ρ ω) : RwLock ρ ω :=
  grant l.readers l.waiting

/-! ### Without writers -/

/-- No writer holds the lock or waits for it. -/
def NoWriter (l : RwLock ρ ω) : Prop :=
  l.writer = none ∧ l.waiting = []

theorem NoWriter.new :
  NoWriter (new ρ ω)
  := ⟨rfl, rfl⟩

/-- Without writers, a reader gets its guard at once. -/
theorem NoWriter.read {l : RwLock ρ ω} (h : l.NoWriter) (r : ρ) :
  (l.read r).NoWriter ∧ (l.read r).readers = r :: l.readers
  := by
  obtain ⟨hw, hq⟩ := h
  have hfree : l.writer.isNone = true ∧ l.waiting.isEmpty = true := by
    rw [hw, hq]
    exact ⟨rfl, rfl⟩
  rw [RwLock.read, dif_pos hfree]
  exact ⟨⟨hw, hq⟩, rfl⟩

theorem NoWriter.dropRead [DecidableEq ρ] {l : RwLock ρ ω} (h : l.NoWriter) (r : ρ) :
  (l.dropRead r).NoWriter ∧ (l.dropRead r).readers = l.readers.erase r
  := by
  obtain ⟨hw, hq⟩ := h
  simp only [RwLock.dropRead, hw, hq, grant]
  exact ⟨⟨rfl, rfl⟩, trivial⟩

/-! ### With one writer -/

/-- The writer `w`, and no other one, holds the lock or is the first to wait for it. -/
def OneWriter (l : RwLock ρ ω) (w : ω) : Prop :=
  ∃ rs : List ρ, (l.writer = some w ∧ l.waiting = rs.map .inl) ∨
    (l.writer = none ∧ l.waiting = .inr w :: rs.map .inl)

/-- A writer that waits does so for the readers. -/
theorem OneWriter.readers_ne_nil {l : RwLock ρ ω} {w : ω} (h : l.OneWriter w)
    (hw : l.writer = none) :
  l.readers ≠ []
  := by
  obtain ⟨rs, ⟨hs, -⟩ | ⟨-, hq⟩⟩ := h
  · rw [hw] at hs
    cases hs
  · rcases l.busy (by rw [hq]; exact nofun) with hn | hr
    · cases hn hw
    · exact hr

theorem OneWriter.readers_eq_nil {l : RwLock ρ ω} {w : ω} (hw : l.writer = some w) :
  l.readers = []
  := by
  apply l.exclusive
  rw [hw]
  exact nofun

/-- The first writer to ask changes nothing for the readers. -/
theorem NoWriter.write {l : RwLock ρ ω} (h : l.NoWriter) (w : ω) :
  (l.write w).OneWriter w ∧ (l.write w).readers = l.readers
  := by
  obtain ⟨hw, hq⟩ := h
  rw [RwLock.write]
  split
  · constructor
    · use []
      left
      exact ⟨rfl, hq⟩
    · rfl
  · constructor
    · use []
      right
      constructor
      · exact hw
      · simp [hq]
    · rfl

/-- A reader that asks after a writer waits. -/
theorem OneWriter.read {l : RwLock ρ ω} {w : ω} (h : l.OneWriter w) (r : ρ) :
  (l.read r).OneWriter w ∧ (l.read r).readers = l.readers ∧ (l.read r).writer = l.writer
  := by
  obtain ⟨rs, hl⟩ := h
  have hbusy : ¬ (l.writer.isNone = true ∧ l.waiting.isEmpty = true) := by
    rintro ⟨hw, hq⟩
    rcases hl with ⟨hs, -⟩ | ⟨-, hs⟩
    · rw [hs] at hw
      cases hw
    · rw [hs] at hq
      cases hq
  rw [RwLock.read, dif_neg hbusy]
  refine ⟨?_, rfl, rfl⟩
  use rs ++ [r]
  rcases hl with ⟨hw, hq⟩ | ⟨hw, hq⟩
  · left
    simp [hw, hq]
  · right
    simp [hw, hq]

/-- When a reader drops its guard, no other reader gets one, as a writer waits. -/
theorem OneWriter.dropRead [DecidableEq ρ] {l : RwLock ρ ω} {w : ω} (h : l.OneWriter w) {r : ρ}
    (hr : r ∈ l.readers) :
  (l.dropRead r).OneWriter w ∧ (l.dropRead r).readers = l.readers.erase r
  := by
  obtain ⟨rs, ⟨hw, -⟩ | ⟨hw, hq⟩⟩ := h
  · rw [readers_eq_nil hw] at hr
    cases hr
  · simp only [RwLock.dropRead, hw, hq, grant]
    split
    · constructor
      · use rs
        left
        exact ⟨rfl, rfl⟩
      · exact Eq.symm ‹_›
    · constructor
      · use rs
        right
        exact ⟨rfl, rfl⟩
      · rfl

/-- Readers that wait all get a guard when no writer is left. -/
theorem grant_readers (readers rs : List ρ) :
  (grant readers (rs.map .inl) : RwLock ρ ω).NoWriter ∧
    (grant readers (rs.map .inl) : RwLock ρ ω).readers = rs.reverse ++ readers
  := by
  induction rs generalizing readers with
  | nil => exact ⟨⟨rfl, rfl⟩, rfl⟩
  | cons r rs ih =>
      obtain ⟨hn, hr⟩ := ih (r :: readers)
      rw [List.map_cons, grant]
      constructor
      · exact hn
      · rw [hr]
        simp

/-- When the writer drops its guard, no writer is left. -/
theorem OneWriter.dropWrite {l : RwLock ρ ω} {w : ω} (h : l.OneWriter w)
    (hw : l.writer = some w) :
  l.dropWrite.NoWriter ∧ ∀ r, r ∈ l.dropWrite.readers → .inl r ∈ l.waiting
  := by
  obtain ⟨rs, ⟨-, hq⟩ | ⟨hn, -⟩⟩ := h
  · rw [RwLock.dropWrite, hq, readers_eq_nil hw]
    obtain ⟨hno, hr⟩ := @grant_readers ρ ω [] rs
    constructor
    · exact hno
    · intro r hmem
      rw [hr] at hmem
      simpa using hmem
  · rw [hw] at hn
    cases hn

/-! ### The readers of a lock -/

/-- The readers that hold a guard or wait for one. -/
def guests (l : RwLock ρ ω) : List ρ :=
  l.readers ++ l.waiting.filterMap Sum.getLeft?

theorem guests_grant (readers : List ρ) (waiting : List (ρ ⊕ ω)) :
  (grant readers waiting).guests.Perm (readers ++ waiting.filterMap Sum.getLeft?)
  := by
  induction waiting generalizing readers with
  | nil => rfl
  | cons x ws ih =>
      cases x with
      | inl r =>
          apply (ih (r :: readers)).trans
          exact List.perm_middle.symm
      | inr w =>
          rw [grant]
          split
          · subst readers
            rfl
          · rfl

theorem guests_read (l : RwLock ρ ω) (r : ρ) :
  (l.read r).guests.Perm (r :: l.guests)
  := by
  rw [read]
  split
  · rfl
  · simp only [guests, List.filterMap_append]
    rw [← List.append_assoc]
    apply List.perm_append_comm

theorem guests_write (l : RwLock ρ ω) (w : ω) :
  (l.write w).guests = l.guests
  := by
  rw [write]
  split
  · rfl
  · simp [guests]

theorem guests_dropRead [DecidableEq ρ] {l : RwLock ρ ω} {r : ρ} (hr : r ∈ l.readers) :
  (l.dropRead r).guests.Perm (l.guests.erase r)
  := by
  cases hw : l.writer with
  | none =>
      simp only [dropRead, hw]
      apply (guests_grant _ _).trans
      rw [guests, List.erase_append_left _ hr]
  | some w =>
      rw [OneWriter.readers_eq_nil hw] at hr
      cases hr

theorem guests_dropWrite (l : RwLock ρ ω) :
  l.dropWrite.guests.Perm l.guests
  := guests_grant _ _

end RwLock

end Async
