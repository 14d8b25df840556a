import Mathlib.Data.List.Nodup

/-!
# Mutexes

`Mutex H` is a fair mutex for the parties `H`: those who ask for the lock get it in the order in
which they ask.  A party that no longer wants the lock, be it the one that holds it or one that
waits for it, leaves the mutex to the others.
-/

namespace Async

universe u

/-- A mutex: the party that holds the lock, and then those who wait for it, in the order in which
they asked.  No party asks for the lock twice. -/
structure Mutex (H : Type u) where
  queue : List H
  nodup : queue.Nodup

namespace Mutex

variable {H : Type u}

/-- A mutex that no one holds. -/
def new (H : Type u) : Mutex H :=
  ⟨[], List.nodup_nil⟩

/-- The party that holds the lock. -/
def holder (m : Mutex H) : Option H :=
  m.queue.head?

/-- Someone holds the lock when someone is in the queue. -/
theorem exists_holder {m : Mutex H} {p : H} (h : p ∈ m.queue) :
  ∃ q, m.holder = some q ∧ q ∈ m.queue
  := by
  cases hq : m.queue with
  | nil =>
      rw [hq] at h
      cases h
  | cons q queue =>
      use q
      rw [holder, hq]
      exact ⟨rfl, List.mem_cons_self⟩

variable [DecidableEq H]

/-- A party asks for the lock. -/
def lock (m : Mutex H) (p : H) : Mutex H :=
  if h : p ∈ m.queue then m
  else ⟨m.queue ++ [p], List.concat_eq_append ▸ m.nodup.concat h⟩

/-- A party releases the lock, or waits for it no more. -/
def leave (m : Mutex H) (p : H) : Mutex H :=
  ⟨m.queue.erase p, m.nodup.erase p⟩

@[simp]
theorem mem_lock {m : Mutex H} {p q : H} :
  q ∈ (m.lock p).queue ↔ q ∈ m.queue ∨ q = p
  := by
  rw [lock]
  split
  · constructor
    · apply Or.inl
    · rintro (h | rfl)
      · exact h
      · assumption
  · rw [List.mem_append, List.mem_singleton]

@[simp]
theorem mem_leave {m : Mutex H} {p q : H} :
  q ∈ (m.leave p).queue ↔ q ≠ p ∧ q ∈ m.queue
  := m.nodup.mem_erase_iff

end Mutex

end Async
