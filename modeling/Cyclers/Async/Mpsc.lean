import Cyclers.Async.Machine

/-!
# Bounded channels

`Mpsc α n` is a bounded first-in first-out channel of capacity `n`.  A sender reserves a
slot and sends an item in it at once: it waits while there is no free slot and fails once
the receiver has been dropped.  The receiver takes the items in the order they were sent,
and sees the end of the channel once every sender has been dropped and no item is left.
-/

namespace Async

/-- A bounded channel of capacity `n`: the items sent and not yet received, at most `n` of
them, whether a sender is alive, and whether the receiver is alive. -/
structure Mpsc (α : Type*) (n : ℕ) where
  queue : List α
  bounded : queue.length ≤ n
  sender : Bool
  receiver : Bool

namespace Mpsc

variable {α : Type*} {n : ℕ}

/-- A channel that has just been made. -/
def channel (α : Type*) (n : ℕ) : Mpsc α n :=
  ⟨[], Nat.zero_le n, true, true⟩

/-- Reserve a slot and send `x` in it.  The result is pending while there is no free slot,
`none` once the receiver has been dropped, and otherwise the channel with `x` sent. -/
def reserve (c : Mpsc α n) (x : α) : Poll (Option (Mpsc α n)) :=
  if c.receiver then
    if h : c.queue.length < n then
      .ready (some { c with
        queue := c.queue ++ [x]
        bounded := by
          rw [List.length_append, List.length_singleton]
          exact h })
    else .pending
  else .ready none

/-- Take the next item.  The result is pending while there is none and a sender is alive,
and `none` at the end of the channel. -/
def recv (c : Mpsc α n) : Poll (Option (α × Mpsc α n)) :=
  match h : c.queue with
  | x :: q =>
      .ready (some (x, { c with
        queue := q
        bounded := by
          have hb := c.bounded
          rw [h, List.length_cons] at hb
          omega }))
  | [] => if c.sender then .pending else .ready none

/-- Drop the last sender. -/
def dropSender (c : Mpsc α n) : Mpsc α n :=
  { c with sender := false }

/-- Drop the receiver: the items not yet received are discarded. -/
def dropReceiver (c : Mpsc α n) : Mpsc α n :=
  { c with queue := [], bounded := Nat.zero_le n, receiver := false }

@[simp]
theorem queue_channel :
  (channel α n).queue = []
  := rfl

@[simp]
theorem sender_channel :
  (channel α n).sender = true
  := rfl

@[simp]
theorem receiver_channel :
  (channel α n).receiver = true
  := rfl

@[simp]
theorem queue_dropSender (c : Mpsc α n) :
  c.dropSender.queue = c.queue
  := rfl

@[simp]
theorem sender_dropSender (c : Mpsc α n) :
  c.dropSender.sender = false
  := rfl

@[simp]
theorem receiver_dropSender (c : Mpsc α n) :
  c.dropSender.receiver = c.receiver
  := rfl

@[simp]
theorem queue_dropReceiver (c : Mpsc α n) :
  c.dropReceiver.queue = []
  := rfl

@[simp]
theorem sender_dropReceiver (c : Mpsc α n) :
  c.dropReceiver.sender = c.sender
  := rfl

@[simp]
theorem receiver_dropReceiver (c : Mpsc α n) :
  c.dropReceiver.receiver = false
  := rfl

/-- A reservation succeeds exactly when the receiver is alive and a slot is free; the item
goes to the end of the queue. -/
theorem reserve_eq_some {c c' : Mpsc α n} {x : α} :
  c.reserve x = .ready (some c') ↔
    c.receiver = true ∧ c.queue.length < n ∧ c'.queue = c.queue ++ [x] ∧
      c'.sender = c.sender ∧ c'.receiver = true
  := by
  obtain ⟨q, b, s, r⟩ := c
  obtain ⟨q', b', s', r'⟩ := c'
  unfold reserve
  cases r with
  | false => simp
  | true =>
      by_cases hl : q.length < n
      · rw [if_pos rfl, dif_pos hl]
        constructor
        · intro h
          cases h
          exact ⟨rfl, hl, rfl, rfl, rfl⟩
        · rintro ⟨-, -, hq, hs, hr⟩
          cases hq
          cases hs
          cases hr
          rfl
      · rw [if_pos rfl, dif_neg hl]
        simp [hl]

/-- A reservation fails exactly when the receiver has been dropped. -/
theorem reserve_eq_none {c : Mpsc α n} {x : α} :
  c.reserve x = .ready none ↔ c.receiver = false
  := by
  unfold reserve
  split <;> rename_i hr
  · split <;> simp_all
  · simpa using hr

/-- An item is received exactly when it is first in the queue, and it leaves the queue. -/
theorem recv_eq_some {c c' : Mpsc α n} {x : α} :
  c.recv = .ready (some (x, c')) ↔
    c.queue = x :: c'.queue ∧ c'.sender = c.sender ∧ c'.receiver = c.receiver
  := by
  obtain ⟨q, b, s, r⟩ := c
  obtain ⟨q', b', s', r'⟩ := c'
  cases q with
  | nil => cases s <;> simp [recv]
  | cons y q => simp [recv]; grind

/-- The end of the channel is seen exactly when its queue is empty and every sender has
been dropped. -/
theorem recv_eq_none {c : Mpsc α n} :
  c.recv = .ready none ↔ c.queue = [] ∧ c.sender = false
  := by
  obtain ⟨q, b, s, r⟩ := c
  cases q with
  | nil => cases s <;> simp [recv]
  | cons y q => simp [recv]

/-- A slot that is free can be reserved while the receiver is alive. -/
theorem exists_reserve {c : Mpsc α n} (hr : c.receiver = true) (hl : c.queue.length < n) (x : α) :
  ∃ c', c.reserve x = .ready (some c')
  := by
  rw [reserve, if_pos hr, dif_pos hl]
  exact ⟨_, rfl⟩

/-- The first item of the queue can be received. -/
theorem exists_recv {c : Mpsc α n} {x : α} {q : List α} (hq : c.queue = x :: q) :
  ∃ c', c.recv = .ready (some (x, c'))
  := by
  obtain ⟨q', b, s, r⟩ := c
  obtain rfl : q' = x :: q := hq
  exact ⟨_, rfl⟩

end Mpsc

end Async
