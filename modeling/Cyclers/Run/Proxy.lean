import Cyclers.Async.Combinator
import Cyclers.Async.Mpsc

/-!
# Proxying one sink stream

A `Lane` is what connects one sink stream to its driver: the loop of `proxy` over the sink
stream, the proxy channel, and what the driver has received through it.  `Lane.poll` is one
event of a lane: the sink stream is ready, a slot of the channel is awaited, the driver
receives from the channel, or the receiver is dropped.

The invariant of a lane relates, at every moment, the items yielded by the sink stream to
those received, buffered and held.
-/

open Async

namespace Cyclers

variable {T E : Type*}

/-- Buffer capacity for the proxy channel created for each sink stream. -/
def sinkProxyBufferLen : ℕ := 1

/-- Where the loop over a sink stream stands: it awaits the next item, it holds an item and
awaits a permit to send it, or it has ended. -/
inductive ProxyState (T : Type*) where
  | next
  | reserve : T → ProxyState T
  | ended
  deriving DecidableEq

/-- The items held by the loop over a sink stream. -/
@[simp]
def ProxyState.held : ProxyState T → List T
  | .next => []
  | .reserve x => [x]
  | .ended => []

/-- The number of items that the loop pulls, at most, before it finds that the receiver has
been dropped. -/
@[simp]
def ProxyState.due : ProxyState T → ℕ
  | .next => 1
  | .reserve _ => 0
  | .ended => 0

/-- A sink stream connected to its driver: the loop over the sink stream, the channel, the
items the driver has received, and whether its receiver has reported the end of stream. -/
structure Lane (T : Type*) where
  proxy : ProxyState T
  channel : Mpsc T sinkProxyBufferLen
  received : List T
  eos : Bool

/-- What happens in a lane: the sink stream, being polled, yields an item or ends; the
permit to send an item is granted, or denied; the driver polls its receiver; the receiver
is dropped. -/
inductive LaneEvent (T E : Type*) where
  | sink : Option (Except E T) → LaneEvent T E
  | reserve
  | recv
  | dropReceiver
  deriving DecidableEq

namespace Lane

/-- A lane as `makeProxyChannels` makes it. -/
def makeProxyChannel (T : Type*) : Lane T where
  proxy := .next
  channel := Mpsc.channel T sinkProxyBufferLen
  received := []
  eos := false

/-- The loop over the sink stream ends, and drops the sink stream and the sender. -/
def finish (l : Lane T) : Lane T :=
  { l with proxy := .ended, channel := l.channel.dropSender }

/-- One event of a lane, and what the stream unfolded over the sink stream gives: nothing
yet, `ok` for an item sent, the error of the sink stream, or its end. -/
def poll (l : Lane T) : LaneEvent T E → Option (Lane T × Poll (Option (Except E Unit)))
  | .sink item =>
      match l.proxy, item with
      | .next, some (.ok x) => some ({ l with proxy := .reserve x }, .pending)
      | .next, some (.error e) => some (l, .ready (some (.error e)))
      | .next, none => some (l.finish, .ready none)
      | _, _ => none
  | .reserve =>
      match l.proxy with
      | .reserve x =>
          match l.channel.reserve x with
          | .pending => none
          | .ready (some c) => some ({ l with proxy := .next, channel := c }, .ready (some (.ok ())))
          | .ready none => some (l.finish, .ready none)
      | _ => none
  | .recv =>
      if l.channel.receiver then
        match l.channel.recv with
        | .pending => none
        | .ready (some (x, c)) =>
            some ({ l with channel := c, received := l.received ++ [x] }, .pending)
        | .ready none => some ({ l with eos := true }, .pending)
      else none
  | .dropReceiver =>
      if l.channel.receiver then
        some ({ l with channel := l.channel.dropReceiver }, .pending)
      else none

/-- The events of a lane, one case for each way one can happen. -/
inductive Step (l : Lane T) :
    LaneEvent T E → Lane T → Poll (Option (Except E Unit)) → Prop where
  | pull (x : T) : l.proxy = .next →
      Step l (.sink (some (.ok x))) { l with proxy := .reserve x } .pending
  | fail (e : E) : l.proxy = .next →
      Step l (.sink (some (.error e))) l (.ready (some (.error e)))
  | finish : l.proxy = .next → Step l (.sink none) l.finish (.ready none)
  | send (x : T) (c : Mpsc T sinkProxyBufferLen) : l.proxy = .reserve x →
      l.channel.reserve x = .ready (some c) →
      Step l .reserve { l with proxy := .next, channel := c } (.ready (some (.ok ())))
  | disconnect (x : T) : l.proxy = .reserve x → l.channel.receiver = false →
      Step l .reserve l.finish (.ready none)
  | recv (x : T) (c : Mpsc T sinkProxyBufferLen) : l.channel.receiver = true →
      l.channel.recv = .ready (some (x, c)) →
      Step l .recv { l with channel := c, received := l.received ++ [x] } .pending
  | eos : l.channel.receiver = true → l.channel.recv = .ready none →
      Step l .recv { l with eos := true } .pending
  | drop : l.channel.receiver = true →
      Step l .dropReceiver { l with channel := l.channel.dropReceiver } .pending

/-- `poll` makes the steps of `Step`. -/
theorem step_of_poll {l l' : Lane T} {e : LaneEvent T E} {p : Poll (Option (Except E Unit))}
    (h : l.poll e = some (l', p)) :
  Step l e l' p
  := by
  cases e with
  | sink item =>
      simp only [poll] at h
      split at h <;> cases h
      · apply Step.pull _ ‹_›
      · apply Step.fail _ ‹_›
      · apply Step.finish ‹_›
  | reserve =>
      simp only [poll] at h
      split at h
      · split at h <;> cases h
        · apply Step.send _ _ ‹_› ‹_›
        · apply Step.disconnect _ ‹_› (Mpsc.reserve_eq_none.mp ‹_›)
      · cases h
  | recv =>
      simp only [poll] at h
      split at h
      · split at h <;> cases h
        · apply Step.recv _ _ ‹_› ‹_›
        · apply Step.eos ‹_› ‹_›
      · cases h
  | dropReceiver =>
      simp only [poll] at h
      split at h <;> cases h
      apply Step.drop ‹_›

/-- The loop over a sink stream ends when its stream does, and only then. -/
theorem Step.proxy_ended {l l' : Lane T} {e : LaneEvent T E}
    {p : Poll (Option (Except E Unit))} (h : Step l e l' p) :
  match p with
  | .pending => l'.proxy = .ended ↔ l.proxy = .ended
  | .ready (some _) => l'.proxy ≠ .ended
  | .ready none => l'.proxy = .ended
  := by
  cases h <;> simp_all [Lane.finish]

/-- The lane as a machine of its own. -/
def machine (T E : Type*) : Machine (Lane T) (LaneEvent T E) where
  step l e := (l.poll e).map Prod.fst

theorem machine_step {l l' : Lane T} {e : LaneEvent T E} {p : Poll (Option (Except E Unit))}
    (h : l.poll e = some (l', p)) :
  (machine T E).step l e = some l'
  := by
  change (l.poll e).map Prod.fst = some l'
  rw [h]
  rfl

/-- The items a sink stream has yielded along a trace of its lane. -/
def okItems (tr : List (LaneEvent T E)) : List T :=
  tr.filterMap fun e =>
    match e with
    | .sink (some (.ok x)) => some x
    | _ => none

@[simp]
theorem okItems_append (tr tr' : List (LaneEvent T E)) :
  okItems (tr ++ tr') = okItems tr ++ okItems tr'
  := List.filterMap_append

@[simp]
theorem okItems_nil :
  okItems ([] : List (LaneEvent T E)) = []
  := rfl

@[simp]
theorem okItems_ok (x : T) (tr : List (LaneEvent T E)) :
  okItems (.sink (some (.ok x)) :: tr) = x :: okItems tr
  := rfl

@[simp]
theorem okItems_error (e : E) (tr : List (LaneEvent T E)) :
  okItems (.sink (some (.error e)) :: tr) = okItems tr
  := rfl

@[simp]
theorem okItems_end (tr : List (LaneEvent T E)) :
  okItems (.sink none :: tr) = okItems tr
  := rfl

@[simp]
theorem okItems_reserve (tr : List (LaneEvent T E)) :
  okItems (.reserve :: tr) = okItems tr
  := rfl

@[simp]
theorem okItems_recv (tr : List (LaneEvent T E)) :
  okItems (.recv :: tr) = okItems tr
  := rfl

@[simp]
theorem okItems_dropReceiver (tr : List (LaneEvent T E)) :
  okItems (.dropReceiver :: tr) = okItems tr
  := rfl

/-- The invariant of a lane, at the state a trace leads to.  While the receiver is alive,
the items yielded by the sink stream are those received, then those in the channel, then
those held; once it has been dropped at most two of them are lost, counting those still to
be pulled.  The loop ends with the sink stream or with the receiver. -/
structure Inv (tr : List (LaneEvent T E)) (l : Lane T) : Prop where
  alive : l.channel.receiver = true →
    okItems tr = l.received ++ (l.channel.queue ++ l.proxy.held)
  dropped : l.channel.receiver = false →
    ∃ lost, okItems tr = l.received ++ lost ∧ lost.length + l.proxy.due ≤ 2
  sender : l.channel.sender = true ↔ l.proxy ≠ .ended
  ended : l.proxy = .ended → .sink none ∈ tr ∨ l.channel.receiver = false
  receiver : l.channel.receiver = false ↔ .dropReceiver ∈ tr
  eos : l.eos = true → .sink none ∈ tr ∧ l.proxy = .ended ∧ l.channel.queue = [] ∧
    okItems tr = l.received

theorem Inv.init :
  Inv ([] : List (LaneEvent T E)) (makeProxyChannel T)
  := by
  constructor <;> simp [makeProxyChannel]

/-- An event of a lane keeps its invariant. -/
theorem Inv.step {tr : List (LaneEvent T E)} {l l' : Lane T} {e : LaneEvent T E}
    {p : Poll (Option (Except E Unit))} (h : Inv tr l) (hs : Step l e l' p) :
  Inv (tr ++ [e]) l'
  := by
  obtain ⟨alive, dropped, sender, ended, receiver, eos⟩ := h
  cases hs with
  | pull x hp =>
      constructor
      · intro hr
        simp [alive hr, hp]
      · intro hr
        obtain ⟨lost, hl, hlen⟩ := dropped hr
        use lost ++ [x]
        simp only [hp, ProxyState.due] at hlen
        simp [hl]
        omega
      all_goals simp_all
  | fail e hp =>
      constructor <;> simp_all
  | finish hp =>
      constructor
      · intro hr
        simp [alive hr, hp, Lane.finish]
      · intro hr
        obtain ⟨lost, hl, hlen⟩ := dropped hr
        use lost
        simp [Lane.finish, hl]
        omega
      all_goals simp_all [Lane.finish]
  | send x c hp hc =>
      obtain ⟨hr, -, hq, hs, hr'⟩ := Mpsc.reserve_eq_some.mp hc
      constructor
      · intro _
        simp [alive hr, hp, hq]
      all_goals simp_all
  | disconnect x hp hr =>
      constructor
      · intro hr'
        simp_all [Lane.finish]
      · intro _
        obtain ⟨lost, hl, hlen⟩ := dropped hr
        use lost
        simp_all [Lane.finish]
      all_goals simp_all [Lane.finish]
  | recv x c hr hc =>
      obtain ⟨hq, hs, hr'⟩ := Mpsc.recv_eq_some.mp hc
      constructor
      · intro _
        simp [alive hr, hq]
      all_goals simp_all
  | eos hr hc =>
      obtain ⟨hq, hs⟩ := Mpsc.recv_eq_none.mp hc
      constructor <;> simp_all
  | drop hr =>
      have hb : l.channel.queue.length ≤ 1 := l.channel.bounded
      constructor
      · simp
      · intro _
        use l.channel.queue ++ l.proxy.held
        constructor
        · simpa using alive hr
        · cases l.proxy <;> simp <;> omega
      all_goals simp_all

/-- A step of the lane as a machine is an event of the lane. -/
theorem exists_of_machine_step {l l' : Lane T} {e : LaneEvent T E}
    (h : (machine T E).step l e = some l') :
  ∃ p, Step l e l' p
  := by
  obtain ⟨⟨l'', p⟩, hp, rfl⟩ := Option.map_eq_some_iff.mp h
  use p
  apply step_of_poll hp

/-- The invariant holds of every state a lane reaches. -/
theorem Inv.of_run {tr : List (LaneEvent T E)} {l : Lane T}
    (h : (machine T E).run (makeProxyChannel T) tr = some l) :
  Inv tr l
  := by
  apply (machine T E).run_induction (P := Inv) Inv.init _ tr l h
  intro tr l e l' _ hl hs
  obtain ⟨p, hp⟩ := exists_of_machine_step hs
  apply hl.step hp

/-- Once the receiver has been dropped it stays so, nothing more is received, and an item
pulled from the sink stream is the last one. -/
theorem Step.of_dropped {l l' : Lane T} {e : LaneEvent T E} {p : Poll (Option (Except E Unit))}
    (hs : Step l e l' p) (hr : l.channel.receiver = false) :
  l'.channel.receiver = false ∧ l'.received = l.received ∧
    (okItems [e]).length + l'.proxy.due ≤ l.proxy.due
  := by
  cases hs with
  | pull x hp => simp [hr, hp]
  | fail e hp => simp [hr]
  | finish hp => simp [hr, Lane.finish]
  | send x c hp hc => simp_all [Mpsc.reserve_eq_some]
  | disconnect x hp _ => simp [hr, Lane.finish]
  | recv x c hr' _ => simp_all
  | eos hr' _ => simp_all
  | drop hr' => simp_all

/-- From the moment the receiver has been dropped, nothing more is received, and at most one
more item is pulled from the sink stream. -/
theorem pulled_of_dropped {l l' : Lane T} {tr : List (LaneEvent T E)}
    (hr : l.channel.receiver = false) (h : (machine T E).run l tr = some l') :
  l'.received = l.received ∧ (okItems tr).length + l'.proxy.due ≤ l.proxy.due
  := by
  induction tr generalizing l with
  | nil =>
      obtain rfl := Option.some.inj h
      simp
  | cons e tr ih =>
      obtain ⟨u, hu, h⟩ := Machine.exists_of_run_cons _ h
      obtain ⟨p, hp⟩ := exists_of_machine_step hu
      obtain ⟨hr', hrec, hdue⟩ := hp.of_dropped hr
      obtain ⟨hrec', hdue'⟩ := ih hr' h
      constructor
      · rw [hrec', hrec]
      · rw [← List.singleton_append, okItems_append, List.length_append]
        omega

end Lane

end Cyclers
