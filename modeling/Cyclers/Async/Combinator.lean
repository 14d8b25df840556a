import Cyclers.Async.Machine

/-!
# Streams and futures that are combined

The combinators of futures and streams, as functions of what the combined futures and
streams yield when they are polled: a stream of one future (`OnceFuture`), the merge of
streams (`merge`), a loop over a stream (`Turn`) and the join of two fallible futures
(`tryJoin`).
-/

namespace Async

/-- A stream of the output of one future: the future has not completed, its output has been
yielded, or the stream has ended. -/
inductive OnceFuture where
  | pending
  | yielded
  | ended
  deriving DecidableEq

/-- What a merged stream yields when one of its streams, polled, gives `p`.  Its items are
the items of its streams; it ends when the last of its streams has ended, that is when
`ended` holds after the poll. -/
def merge {α : Type*} (ended : Bool) : Poll (Option α) → Poll (Option α)
  | .pending => .pending
  | .ready (some x) => .ready (some x)
  | .ready none => if ended then .ready none else .pending

/-- The state of a loop: it goes round, it has returned, or it has panicked. -/
inductive Turn (α : Type*) where
  | loop
  | ret : α → Turn α
  | panic
  deriving DecidableEq

/-- The state of a loop over a stream after the stream is polled, for a body that runs on
each item, or the end, of the stream. -/
def Turn.poll {α β : Type*} (body : Option α → Turn β) (t : Turn β) : Poll (Option α) → Turn β
  | .pending => t
  | .ready x => body x

/-- The outcome of an asynchronous block that may fail or panic. -/
inductive Outcome (α ε : Type*) where
  | ok : α → Outcome α ε
  | err : ε → Outcome α ε
  | panicked
  deriving DecidableEq

/-- The outcome of the join of two fallible futures: the first error of one of them, or the
outputs of both of them, of which the second is discarded. -/
def tryJoin {α β ε : Type*} : Turn (Except ε α) → Turn (Except ε β) → Option (Outcome α ε)
  | .panic, _ => some .panicked
  | _, .panic => some .panicked
  | .ret (.error e), _ => some (.err e)
  | _, .ret (.error e) => some (.err e)
  | .ret (.ok v), .ret (.ok _) => some (.ok v)
  | .loop, _ => none
  | _, .loop => none

end Async
