import Mathlib.Data.List.Basic
import Cyclers.Async.Machine

/-!
# Oneshot channels

A oneshot channel takes one value from its sender to its receiver.  The receiver is shared here by
clones of one stream, each held by a party of `H`; it is dropped with the last of them, and
the value that has been received is given to all of them.  Sending fails when the receiver has been
dropped, and receiving fails when the sender has been dropped without sending.
-/

namespace Async

universe u

/-- The sender of a oneshot channel: it has not been used, it has sent the value, or it has been
dropped without sending. -/
inductive OneshotSender where
  | held
  | sent
  | dropped
  deriving DecidableEq

/-- A oneshot channel, and the parties that hold its receiver. -/
structure Oneshot (H : Type u) where
  sender : OneshotSender
  holders : List H

namespace Oneshot

variable {H : Type u}

/-- A party gets a clone of the receiver. -/
def clone (c : Oneshot H) (p : H) : Oneshot H :=
  { c with holders := p :: c.holders }

/-- A party drops what it holds of the receiver, if anything. -/
def drop [DecidableEq H] (c : Oneshot H) (p : H) : Oneshot H :=
  { c with holders := c.holders.filter fun q => q ≠ p }

/-- Send the value.  Fails when no party holds the receiver. -/
def send (c : Oneshot H) : Option (Oneshot H) :=
  if c.holders = [] then none else some { c with sender := .sent }

/-- Drop the sender. -/
def dropSender (c : Oneshot H) : Oneshot H :=
  match c.sender with
  | .held => { c with sender := .dropped }
  | _ => c

/-- Poll for the value: it is there, it will never be, or it is pending. -/
def recv (c : Oneshot H) : Poll Bool :=
  match c.sender with
  | .held => .pending
  | .sent => .ready true
  | .dropped => .ready false

@[simp]
theorem mem_clone {c : Oneshot H} {p q : H} :
  q ∈ (c.clone p).holders ↔ q = p ∨ q ∈ c.holders
  := List.mem_cons

@[simp]
theorem mem_drop [DecidableEq H] {c : Oneshot H} {p q : H} :
  q ∈ (c.drop p).holders ↔ q ≠ p ∧ q ∈ c.holders
  := by
  rw [drop, List.mem_filter, decide_eq_true_eq, and_comm]

@[simp]
theorem sender_drop [DecidableEq H] (c : Oneshot H) (p : H) :
  (c.drop p).sender = c.sender
  := rfl

@[simp]
theorem holders_dropSender (c : Oneshot H) :
  c.dropSender.holders = c.holders
  := by
  rw [dropSender]
  split <;> rfl

theorem dropSender_of_held {c : Oneshot H} (h : c.sender = .held) :
  c.dropSender.sender = .dropped
  := by
  rw [dropSender, h]

theorem dropSender_of_sent {c : Oneshot H} (h : c.sender = .sent) :
  c.dropSender = c
  := by
  rw [dropSender, h]

/-- The value is sent exactly when a party holds the receiver. -/
theorem send_eq_none_iff {c : Oneshot H} :
  c.send = none ↔ ∀ p, p ∉ c.holders
  := by
  rw [send, ← List.eq_nil_iff_forall_not_mem]
  split <;> simp [*]

theorem of_send_eq_some {c c' : Oneshot H} (h : c.send = some c') :
  c' = { c with sender := .sent }
  := by
  rw [send] at h
  split at h <;> cases h
  rfl

theorem recv_eq_ready_true {c : Oneshot H} :
  c.recv = .ready true ↔ c.sender = .sent
  := by
  rw [recv]
  cases c.sender <;> simp

theorem recv_eq_ready_false {c : Oneshot H} :
  c.recv = .ready false ↔ c.sender = .dropped
  := by
  rw [recv]
  cases c.sender <;> simp

end Oneshot

end Async
