import Cyclers.Async.Machine
import Cyclers.Async.RwLock
import Cyclers.WebTransport.Command
import Mathlib.Logic.Function.Basic

/-!
# Terminating sessions

The handler of the commands to terminate a session writes to the lock of the session before
it closes it.  A stream of received streams reads from the same lock, and holds its guard
while it waits for the peer to open a stream.  The handler therefore waits for the peer, unless
the peer has opened enough streams by the time the command is taken.
-/

open Async

namespace Cyclers

namespace WebTransport

/-- The directions in which data flow in a stream. -/
inductive Direction where
  | uni
  | bi
  deriving DecidableEq

/-- A stream of received streams of a session, as `uniStreamReceived` or `biStreamReceived`
returns it; there may be any number of them. -/
structure ReceivedStream where
  session : SessionId
  direction : Direction
  index : ℕ
  deriving DecidableEq

/-- The handler of the commands to terminate a session: it awaits the next command, it awaits
the lock of the session of a command, or it has failed. -/
inductive TerminateHandler where
  | next
  | write : TerminateSessionCommand → TerminateHandler
  | failed : BoxError → TerminateHandler
  deriving DecidableEq

/-- The sessions of a driver: which ones are in the map, their locks, the streams of received
streams that have been polled and have not yet yielded an item, the number of streams that
the peer has opened and that have not been accepted, the sessions that are closed, the
handler, and the calls it has made to close a session. -/
structure TerminateState where
  sessions : SessionId → Bool
  locks : SessionId → RwLock ReceivedStream Unit
  polled : List ReceivedStream
  incoming : SessionId → Direction → ℕ
  closed : SessionId → Bool
  handler : TerminateHandler
  calls : List TerminateSessionCommand

/-- What happens to the sessions: one is established; the peer opens a stream; a connection is
lost; the handler takes a command; a stream of received streams is polled; the transport
accepts a stream, or fails to, for one that holds its guard; the handler, given its guard,
closes the session. -/
inductive TerminateEvent where
  | established : SessionId → TerminateEvent
  | opens : SessionId → Direction → TerminateEvent
  | lost : SessionId → TerminateEvent
  | take : TerminateSessionCommand → TerminateEvent
  | poll : ReceivedStream → TerminateEvent
  | accept : ReceivedStream → TerminateEvent
  | close
  deriving DecidableEq

namespace TerminateState

/-- No session is established. -/
def init : TerminateState where
  sessions _ := false
  locks _ := RwLock.new ReceivedStream Unit
  polled := []
  incoming _ _ := 0
  closed _ := false
  handler := .next
  calls := []

/-- A stream of received streams drops its guard and yields an item. -/
def yieldItem (s : TerminateState) (j : ReceivedStream) : TerminateState :=
  { s with
    locks := Function.update s.locks j.session ((s.locks j.session).dropRead j)
    polled := s.polled.erase j }

/-- One event. -/
def step (s : TerminateState) : TerminateEvent → Option TerminateState
  | .established session =>
      some { s with sessions := Function.update s.sessions session true }
  | .opens session direction =>
      some { s with
        incoming := Function.update s.incoming session
          (Function.update (s.incoming session) direction (s.incoming session direction + 1)) }
  | .lost session => some { s with closed := Function.update s.closed session true }
  | .take command =>
      match s.handler with
      | .next =>
          if s.sessions command.sessionId = true then
            some { s with
              handler := .write command
              locks := Function.update s.locks command.sessionId
                ((s.locks command.sessionId).write ()) }
          else some { s with handler := .failed "invalid session ID" }
      | _ => none
  | .poll j =>
      if j ∈ s.polled then none
      else if s.sessions j.session = true then
        some { s with
          locks := Function.update s.locks j.session ((s.locks j.session).read j)
          polled := j :: s.polled }
      else some s
  | .accept j =>
      if j ∈ s.polled ∧ j ∈ (s.locks j.session).readers then
        if 0 < s.incoming j.session j.direction then
          some { s.yieldItem j with
            incoming := Function.update s.incoming j.session
              (Function.update (s.incoming j.session) j.direction
                (s.incoming j.session j.direction - 1)) }
        else if s.closed j.session = true then some (s.yieldItem j)
        else none
      else none
  | .close =>
      match s.handler with
      | .write command =>
          if (s.locks command.sessionId).writer = some () then
            some { s with
              locks := Function.update s.locks command.sessionId
                (s.locks command.sessionId).dropWrite
              closed := Function.update s.closed command.sessionId true
              handler := .next
              calls := s.calls ++ [command] }
          else none
      | _ => none

/-- The sessions as a machine. -/
def machine : Machine TerminateState TerminateEvent where
  step := step

/-- The events of the sessions, one case for each way one can happen. -/
inductive Step (s : TerminateState) : TerminateEvent → TerminateState → Prop where
  | established (session : SessionId) :
      Step s (.established session)
        { s with sessions := Function.update s.sessions session true }
  | opens (session : SessionId) (direction : Direction) :
      Step s (.opens session direction) { s with
        incoming := Function.update s.incoming session
          (Function.update (s.incoming session) direction (s.incoming session direction + 1)) }
  | lost (session : SessionId) :
      Step s (.lost session) { s with closed := Function.update s.closed session true }
  | take (command : TerminateSessionCommand) : s.handler = .next →
      s.sessions command.sessionId = true →
      Step s (.take command) { s with
        handler := .write command
        locks := Function.update s.locks command.sessionId
          ((s.locks command.sessionId).write ()) }
  | invalid (command : TerminateSessionCommand) : s.handler = .next →
      s.sessions command.sessionId = false →
      Step s (.take command) { s with handler := .failed "invalid session ID" }
  | poll (j : ReceivedStream) : j ∉ s.polled → s.sessions j.session = true →
      Step s (.poll j) { s with
        locks := Function.update s.locks j.session ((s.locks j.session).read j)
        polled := j :: s.polled }
  | notFound (j : ReceivedStream) : j ∉ s.polled → s.sessions j.session = false →
      Step s (.poll j) s
  | accept (j : ReceivedStream) : j ∈ s.polled → j ∈ (s.locks j.session).readers →
      0 < s.incoming j.session j.direction →
      Step s (.accept j) { s.yieldItem j with
        incoming := Function.update s.incoming j.session
          (Function.update (s.incoming j.session) j.direction
            (s.incoming j.session j.direction - 1)) }
  | refuse (j : ReceivedStream) : j ∈ s.polled → j ∈ (s.locks j.session).readers →
      s.closed j.session = true → Step s (.accept j) (s.yieldItem j)
  | close (command : TerminateSessionCommand) : s.handler = .write command →
      (s.locks command.sessionId).writer = some () →
      Step s .close { s with
        locks := Function.update s.locks command.sessionId
          (s.locks command.sessionId).dropWrite
        closed := Function.update s.closed command.sessionId true
        handler := .next
        calls := s.calls ++ [command] }

/-- The machine makes the steps of `Step`. -/
theorem step_of_machine {s t : TerminateState} {e : TerminateEvent}
    (h : machine.step s e = some t) :
  Step s e t
  := by
  change s.step e = some t at h
  cases e with
  | established session =>
      obtain rfl := Option.some.inj h
      apply Step.established
  | opens session direction =>
      obtain rfl := Option.some.inj h
      apply Step.opens
  | lost session =>
      obtain rfl := Option.some.inj h
      apply Step.lost
  | take command =>
      simp only [step] at h
      split at h
      · split at h <;> cases h
        · apply Step.take _ ‹_› ‹_›
        · apply Step.invalid _ ‹_› ((Bool.not_eq_true _).mp ‹_›)
      · cases h
  | poll j =>
      simp only [step] at h
      split at h
      · cases h
      · split at h <;> cases h
        · apply Step.poll _ ‹_› ‹_›
        · apply Step.notFound _ ‹_› ((Bool.not_eq_true _).mp ‹_›)
  | accept j =>
      simp only [step] at h
      split at h
      · obtain ⟨hp, hr⟩ := ‹_ ∧ _›
        split at h
        · cases h
          apply Step.accept _ hp hr ‹_›
        · split at h <;> cases h
          apply Step.refuse _ hp hr ‹_›
      · cases h
  | close =>
      simp only [step] at h
      split at h
      · split at h <;> cases h
        apply Step.close _ ‹_› ‹_›
      · cases h

/-! ### The locks -/

/-- The invariant of the sessions.  A stream of received streams that holds a guard or waits
for one has been polled, and asked for it once; the lock of a session has a writer exactly
while the handler awaits it. -/
structure Inv (s : TerminateState) : Prop where
  polled : s.polled.Nodup
  nodup : ∀ session, (s.locks session).guests.Nodup
  guests : ∀ session, ∀ j ∈ (s.locks session).guests, j.session = session ∧ j ∈ s.polled
  quiet : ∀ session, (∀ command, s.handler = .write command → command.sessionId ≠ session) →
    (s.locks session).NoWriter
  asked : ∀ command, s.handler = .write command → (s.locks command.sessionId).OneWriter ()

theorem Inv.init :
  Inv init
  := by
  constructor
  · exact List.nodup_nil
  · intro session
    exact List.nodup_nil
  · intro session j hj
    cases hj
  · intro session _
    exact RwLock.NoWriter.new
  · intro command h
    cases h

/-- Changing one lock by an operation that permutes its readers keeps them polled once. -/
theorem guests_update {locks : SessionId → RwLock ReceivedStream Unit}
    {P : SessionId → List ReceivedStream → Prop} {session : SessionId}
    {l : RwLock ReceivedStream Unit} (hother : ∀ s, s ≠ session → P s (locks s).guests)
    (hl : P session l.guests) :
  ∀ s, P s (Function.update locks session l s).guests
  := by
  intro s
  by_cases hs : s = session
  · subst hs
    rw [Function.update_self]
    exact hl
  · rw [Function.update_of_ne hs]
    apply hother s hs

/-- A stream that drops its guard and yields an item keeps the invariant. -/
theorem Inv.yieldItem {s : TerminateState} (h : Inv s) {j : ReceivedStream} (hp : j ∈ s.polled)
    (hr : j ∈ (s.locks j.session).readers) :
  Inv (s.yieldItem j)
  := by
  have hperm := RwLock.guests_dropRead hr
  have hout : ∀ k ∈ (s.locks j.session).guests.erase j, k ≠ j := by
    intro k hk
    exact ((h.nodup _).mem_erase_iff.mp hk).1
  constructor
  · exact h.polled.erase j
  · apply guests_update (P := fun _ gs => gs.Nodup) fun s _ => h.nodup s
    rw [hperm.nodup_iff]
    exact (h.nodup _).erase j
  · apply guests_update
      (P := fun session gs => ∀ k ∈ gs, k.session = session ∧ k ∈ s.polled.erase j)
    · intro session hses k hk
      obtain ⟨hks, hkp⟩ := h.guests session k hk
      have hne : k ≠ j := by
        rintro rfl
        exact hses hks.symm
      exact ⟨hks, (List.mem_erase_of_ne hne).mpr hkp⟩
    · intro k hk
      have hk := hperm.mem_iff.mp hk
      obtain ⟨hks, hkp⟩ := h.guests _ k (List.mem_of_mem_erase hk)
      exact ⟨hks, (List.mem_erase_of_ne (hout k hk)).mpr hkp⟩
  · intro session hne
    have hno := h.quiet session hne
    dsimp only [TerminateState.yieldItem]
    by_cases hses : session = j.session
    · subst hses
      rw [Function.update_self]
      apply (hno.dropRead j).1
    · rw [Function.update_of_ne hses]
      exact hno
  · intro command hc
    have hone := h.asked command hc
    dsimp only [TerminateState.yieldItem]
    by_cases hses : command.sessionId = j.session
    · rw [hses] at hone ⊢
      rw [Function.update_self]
      apply (hone.dropRead hr).1
    · rw [Function.update_of_ne hses]
      exact hone

/-- An event of the sessions keeps their invariant. -/
theorem Inv.step {s t : TerminateState} {e : TerminateEvent} (h : Inv s) (hs : Step s e t) :
  Inv t
  := by
  cases hs with
  | established session => exact ⟨h.polled, h.nodup, h.guests, h.quiet, h.asked⟩
  | opens session direction => exact ⟨h.polled, h.nodup, h.guests, h.quiet, h.asked⟩
  | lost session => exact ⟨h.polled, h.nodup, h.guests, h.quiet, h.asked⟩
  | notFound j _ _ => exact h
  | invalid command hn _ =>
      refine ⟨h.polled, h.nodup, h.guests, ?_, nofun⟩
      intro session _
      apply h.quiet session
      rw [hn]
      exact nofun
  | take command hn hreg =>
      have hno : ∀ session, (s.locks session).NoWriter := by
        intro session
        apply h.quiet session
        rw [hn]
        exact nofun
      have hguests : ((s.locks command.sessionId).write ()).guests =
          (s.locks command.sessionId).guests := RwLock.guests_write _ ()
      constructor
      · exact h.polled
      · apply guests_update (P := fun _ gs => gs.Nodup) fun s _ => h.nodup s
        rw [hguests]
        apply h.nodup
      · apply guests_update (P := fun session gs => ∀ j ∈ gs, j.session = session ∧ j ∈ s.polled)
          fun s _ => h.guests s
        rw [hguests]
        apply h.guests
      · intro session hne
        dsimp only
        rw [Function.update_of_ne (hne command rfl).symm]
        apply hno
      · intro command' hc
        cases hc
        dsimp only
        rw [Function.update_self]
        apply ((hno command.sessionId).write ()).1
  | poll j hp hreg =>
      have hperm := RwLock.guests_read (s.locks j.session) j
      have hnew : j ∉ (s.locks j.session).guests := fun hj => hp (h.guests _ j hj).2
      constructor
      · exact List.nodup_cons.mpr ⟨hp, h.polled⟩
      · apply guests_update (P := fun _ gs => gs.Nodup) fun s _ => h.nodup s
        rw [hperm.nodup_iff]
        exact List.nodup_cons.mpr ⟨hnew, h.nodup _⟩
      · apply guests_update
          (P := fun session gs => ∀ k ∈ gs, k.session = session ∧ k ∈ j :: s.polled)
        · intro session _ k hk
          obtain ⟨hks, hkp⟩ := h.guests session k hk
          exact ⟨hks, List.mem_cons_of_mem _ hkp⟩
        · intro k hk
          rcases List.mem_cons.mp (hperm.mem_iff.mp hk) with rfl | hk
          · exact ⟨rfl, List.mem_cons_self ..⟩
          · obtain ⟨hks, hkp⟩ := h.guests _ k hk
            exact ⟨hks, List.mem_cons_of_mem _ hkp⟩
      · intro session hne
        have hno := h.quiet session hne
        dsimp only
        by_cases hses : session = j.session
        · subst hses
          rw [Function.update_self]
          apply (hno.read j).1
        · rw [Function.update_of_ne hses]
          exact hno
      · intro command hc
        have hone := h.asked command hc
        dsimp only
        by_cases hses : command.sessionId = j.session
        · rw [hses] at hone ⊢
          rw [Function.update_self]
          apply (hone.read j).1
        · rw [Function.update_of_ne hses]
          exact hone
  | accept j hp hr hin =>
      have hy := h.yieldItem hp hr
      exact ⟨hy.polled, hy.nodup, hy.guests, hy.quiet, hy.asked⟩
  | refuse j hp hr hc => exact h.yieldItem hp hr
  | close command hc hw =>
      have hone := h.asked command hc
      have hperm := RwLock.guests_dropWrite (s.locks command.sessionId)
      constructor
      · exact h.polled
      · apply guests_update (P := fun _ gs => gs.Nodup) fun s _ => h.nodup s
        rw [hperm.nodup_iff]
        apply h.nodup
      · apply guests_update (P := fun session gs => ∀ j ∈ gs, j.session = session ∧ j ∈ s.polled)
          fun s _ => h.guests s
        intro j hj
        apply h.guests _ j (hperm.mem_iff.mp hj)
      · intro session _
        dsimp only
        by_cases hses : session = command.sessionId
        · subst hses
          rw [Function.update_self]
          apply (hone.dropWrite hw).1
        · rw [Function.update_of_ne hses]
          apply h.quiet session
          intro command' hc'
          rw [hc] at hc'
          cases hc'
          exact Ne.symm hses
      · exact nofun

/-- The invariant holds of every state reached. -/
theorem Inv.of_run {tr : List TerminateEvent} {s : TerminateState}
    (h : machine.run TerminateState.init tr = some s) :
  Inv s
  := by
  apply machine.run_invariant Inv.init _ h
  intro s e t hs ht
  apply hs.step (step_of_machine ht)

/-! ### What the handler waits for -/

/-- The number of streams of received streams, in a direction, that hold a guard of a
session. -/
def held (s : TerminateState) (session : SessionId) (direction : Direction) : ℕ :=
  (s.locks session).readers.countP fun j => j.direction = direction

/-- A session is free when it is closed, or else the peer has opened as many streams of each
direction as are awaited by those that hold a guard. -/
def Free (s : TerminateState) (session : SessionId) : Prop :=
  s.closed session = true ∨ ∀ direction, s.held session direction ≤ s.incoming session direction

/-- The events of the peer of a session: it opens a stream, or the connection is lost. -/
def FromPeer (session : SessionId) : TerminateEvent → Prop
  | .opens session' _ => session' = session
  | .lost session' => session' = session
  | _ => False

/-- The handler awaits the lock of the session of a command since the state `s`: the guards
dropped since then are those of the streams accepted. -/
structure Waits (s t : TerminateState) (command : TerminateSessionCommand) : Prop where
  handler : t.handler = .write command
  calls : t.calls = s.calls
  closed : t.closed command.sessionId = s.closed command.sessionId
  accepted : s.closed command.sessionId = false → ∀ direction,
    t.held command.sessionId direction + s.incoming command.sessionId direction =
      s.held command.sessionId direction + t.incoming command.sessionId direction

/-- The handler awaits the lock since the state `s`, or has closed the session, which was
free. -/
def Progress (s t : TerminateState) (command : TerminateSessionCommand) : Prop :=
  Waits s t command ∨ s.calls ++ [command] <+: t.calls ∧ Free s command.sessionId

/-- The command has just been taken. -/
theorem Progress.take {s t : TerminateState} {command : TerminateSessionCommand} (h : Inv s)
    (hreg : s.sessions command.sessionId = true) (hs : Step s (.take command) t) :
  Progress s t command
  := by
  cases hs with
  | take _ hn _ =>
      have hno : (s.locks command.sessionId).NoWriter := by
        apply h.quiet
        rw [hn]
        exact nofun
      left
      constructor
      · rfl
      · rfl
      · rfl
      · intro _ direction
        simp only [held, Function.update_self]
        rw [(hno.write ()).2]
  | invalid _ _ hf =>
      rw [hreg] at hf
      cases hf

/-- While the handler awaits the lock of a session, a stream that drops its guard is one
less to hold a guard of its session. -/
theorem held_yieldItem {t : TerminateState} {command : TerminateSessionCommand}
    (h : (t.locks command.sessionId).OneWriter ()) {j : ReceivedStream}
    (hj : j ∈ (t.locks j.session).readers) (direction : Direction) :
  (t.yieldItem j).held command.sessionId direction +
      (if j.session = command.sessionId ∧ j.direction = direction then 1 else 0) =
    t.held command.sessionId direction
  := by
  by_cases hs : command.sessionId = j.session
  · rw [hs] at h ⊢
    simp only [held, yieldItem, Function.update_self]
    rw [(h.dropRead hj).2, (List.perm_cons_erase hj).countP_eq, List.countP_cons]
    simp
  · simp only [held, yieldItem, Function.update_of_ne hs]
    rw [if_neg fun h => hs h.1.symm]
    rfl

/-- The handler makes progress at every event that is not from the peer. -/
theorem Progress.step {s t u : TerminateState} {command : TerminateSessionCommand}
    {e : TerminateEvent} (h : Progress s t command) (ht : Inv t)
    (he : ¬ FromPeer command.sessionId e) (hs : Step t e u) :
  Progress s u command
  := by
  rcases h with ⟨handler, calls, closed, accepted⟩ | ⟨hcalls, hfree⟩
  · have hone := ht.asked command handler
    cases hs with
    | established session => exact .inl ⟨handler, calls, closed, accepted⟩
    | notFound j _ _ => exact .inl ⟨handler, calls, closed, accepted⟩
    | opens session direction =>
        have hne : command.sessionId ≠ session := fun h => he h.symm
        left
        refine ⟨handler, calls, closed, ?_⟩
        intro hc d
        dsimp only
        rw [Function.update_of_ne hne]
        apply accepted hc d
    | lost session =>
        have hne : command.sessionId ≠ session := fun h => he h.symm
        left
        refine ⟨handler, calls, ?_, accepted⟩
        dsimp only
        rw [Function.update_of_ne hne, closed]
    | take command' hn _ =>
        rw [handler] at hn
        cases hn
    | invalid command' hn _ =>
        rw [handler] at hn
        cases hn
    | poll j _ _ =>
        left
        refine ⟨handler, calls, closed, ?_⟩
        intro hc d
        rw [← accepted hc d]
        by_cases hses : command.sessionId = j.session
        · rw [hses] at hone ⊢
          simp only [held, Function.update_self]
          rw [(hone.read j).2.1]
        · simp only [held, Function.update_of_ne hses]
    | accept j _ hj hin =>
        left
        refine ⟨handler, calls, closed, ?_⟩
        intro hc d
        have hacc := accepted hc d
        have hheld := held_yieldItem hone hj d
        change (t.yieldItem j).held command.sessionId d + _ = _
        by_cases hses : command.sessionId = j.session
        · by_cases hd : d = j.direction
          · subst hd
            rw [if_pos ⟨hses.symm, rfl⟩] at hheld
            simp only [hses, Function.update_self] at hacc hheld ⊢
            omega
          · rw [if_neg fun h => hd h.2.symm] at hheld
            simp only [hses, Function.update_self, Function.update_of_ne hd] at hacc hheld ⊢
            omega
        · rw [if_neg fun h => hses h.1.symm] at hheld
          simp only [Function.update_of_ne hses]
          omega
    | refuse j _ hj hclosed =>
        left
        refine ⟨handler, calls, closed, ?_⟩
        intro hc d
        have hacc := accepted hc d
        have hheld := held_yieldItem hone hj d
        have hses : ¬ (j.session = command.sessionId ∧ j.direction = d) := by
          rintro ⟨hses, -⟩
          rw [hses, closed, hc] at hclosed
          cases hclosed
        rw [if_neg hses] at hheld
        change (t.yieldItem j).held command.sessionId d + _ = _ + t.incoming command.sessionId d
        omega
    | close command' hc' hw =>
        rw [handler] at hc'
        cases hc'
        right
        constructor
        · have hcalls : s.calls ++ [command] = t.calls ++ [command] := by rw [calls]
          exact hcalls ▸ List.prefix_refl (s.calls ++ [command])
        · cases hc : s.closed command.sessionId with
          | true => exact .inl hc
          | false =>
              right
              intro d
              have hacc := accepted hc d
              have hnone : t.held command.sessionId d = 0 := by
                rw [held, RwLock.OneWriter.readers_eq_nil hw]
                rfl
              omega
  · right
    refine ⟨?_, hfree⟩
    cases hs with
    | close command' _ _ => exact hcalls.trans (List.prefix_append _ _)
    | _ => exact hcalls

/-- The handler makes progress along every run without events from the peer. -/
theorem Progress.run {s t u : TerminateState} {command : TerminateSessionCommand}
    {tr : List TerminateEvent} (h : Progress s t command) (ht : Inv t)
    (he : ∀ e ∈ tr, ¬ FromPeer command.sessionId e) (hr : machine.run t tr = some u) :
  Progress s u command ∧ Inv u
  := by
  induction tr generalizing t with
  | nil =>
      obtain rfl := Option.some.inj hr
      exact ⟨h, ht⟩
  | cons e tr ih =>
      rw [List.forall_mem_cons] at he
      obtain ⟨v, hv, hr⟩ := Machine.exists_of_run_cons _ hr
      have hs := step_of_machine hv
      apply ih (h.step ht he.1 hs) (ht.step hs) he.2 hr

/-! ### When a session is closed -/

/-- The events that need nothing from the peers, the sink and those who poll the streams: a
stream is accepted or refused, and the handler closes a session. -/
def internal : TerminateEvent → Prop
  | .accept _ => True
  | .close => True
  | _ => False

/-- In a quiescent state the handler awaits the lock of a session only when the session is not
free. -/
theorem Waits.not_free {s t : TerminateState} {command : TerminateSessionCommand}
    (h : Waits s t command) (ht : Inv t) (hq : machine.Quiescent internal t) :
  ¬ Free s command.sessionId
  := by
  have hone := ht.asked command h.handler
  cases hw : (t.locks command.sessionId).writer with
  | some w =>
      exfalso
      have hclose : t.step .close ≠ none := by
        simp [step, h.handler, hw]
      apply hclose (hq .close trivial)
  | none =>
      obtain ⟨j, hj⟩ := List.exists_mem_of_ne_nil _ (hone.readers_ne_nil hw)
      obtain ⟨hses, hp⟩ := ht.guests _ j (List.mem_append_left _ hj)
      rw [← hses] at hj
      have haccept : t.step (.accept j) = none := hq (.accept j) trivial
      simp only [step, hp, hj, and_self, if_true] at haccept
      split at haccept
      · cases haccept
      · split at haccept
        · cases haccept
        · rename_i hin hclosed
          rw [hses, h.closed] at hclosed
          rintro (hc | hfree)
          · exact hclosed hc
          · have hacc := h.accepted ((Bool.not_eq_true _).mp hclosed) j.direction
            have hle := hfree j.direction
            have hpos : 0 < t.held command.sessionId j.direction := by
              rw [held, ← hses]
              apply List.countP_pos_iff.mpr
              use j, hj
              simp
            rw [hses] at hin
            omega

/-- The streams accepted and the sessions closed come to an end. -/
theorem exists_quiescent (s : TerminateState) :
  ∃ tr t, (∀ e ∈ tr, internal e) ∧ machine.run s tr = some t ∧ machine.Quiescent internal t
  := by
  apply machine.exists_quiescent fun s =>
    s.polled.length + match s.handler with
      | .write _ => 1
      | _ => 0
  intro s e t he hs
  cases step_of_machine hs with
  | accept j hp _ _ =>
      have hlen := List.length_erase_of_mem hp
      have hpos := List.length_pos_of_mem hp
      simp only [yieldItem]
      omega
  | refuse j hp _ _ =>
      have hlen := List.length_erase_of_mem hp
      have hpos := List.length_pos_of_mem hp
      simp only [yieldItem]
      omega
  | close command hc _ =>
      dsimp only
      rw [hc]
      exact Nat.lt_succ_self _
  | _ => cases he

/-- When a command to terminate a session is not blocked.  For a command taken in any state
reached, to terminate a session that is registered: whatever happens next, as long as nothing
comes from the peer of the session, the session has been closed at that command whenever
nothing more can happen by itself, exactly when the session was free: closed already, or with
at least as many streams of each direction opened by the peer as are awaited by the streams
of received streams that hold a guard. -/
theorem close_iff_free {tr : List TerminateEvent} {s s' : TerminateState}
    {command : TerminateSessionCommand} (h : machine.run TerminateState.init tr = some s)
    (hreg : s.sessions command.sessionId = true) (hs : machine.step s (.take command) = some s') :
  (∀ tr' t, (∀ e ∈ tr', ¬ FromPeer command.sessionId e) → machine.run s' tr' = some t →
    machine.Quiescent internal t → s.calls ++ [command] <+: t.calls) ↔
    Free s command.sessionId
  := by
  have hinv := Inv.of_run h
  have htake := step_of_machine hs
  have hprogress := Progress.take hinv hreg htake
  have hinv' := hinv.step htake
  constructor
  · intro hclose
    obtain ⟨tr', t, htr', ht, hq⟩ := exists_quiescent s'
    have hpeer : ∀ e ∈ tr', ¬ FromPeer command.sessionId e := by
      intro e he hpeer
      have hint := htr' e he
      cases e <;> first | exact hpeer | exact hint
    obtain ⟨hw | ⟨-, hfree⟩, hinvt⟩ := hprogress.run hinv' hpeer ht
    · have hpre := hclose tr' t hpeer ht hq
      rw [hw.calls] at hpre
      have hlen := hpre.length_le
      rw [List.length_append] at hlen
      exact absurd hlen (Nat.not_succ_le_self _)
    · exact hfree
  · intro hfree tr' t hpeer ht hq
    obtain ⟨hw | ⟨hcalls, -⟩, hinvt⟩ := hprogress.run hinv' hpeer ht
    · cases hw.not_free hinvt hq hfree
    · exact hcalls

/-- A stream of received streams has been polled, and holds the guard of its session, when
the session is to be terminated: nothing more happens until the peer opens a stream, and the
session is not closed. -/
theorem take_blocked :
  let j : ReceivedStream := ⟨⟨1⟩, .uni, 0⟩
  let command : TerminateSessionCommand := ⟨⟨1⟩, 0, ""⟩
  ∃ s, machine.run TerminateState.init [.established ⟨1⟩, .poll j, .take command] = some s ∧
    machine.Quiescent (fun e => internal e ∨ e = .poll j) s ∧
    s.handler = .write command ∧ s.closed ⟨1⟩ = false ∧ s.calls = []
  := by
  intro j command
  refine ⟨_, rfl, ?_, rfl, rfl, rfl⟩
  intro e he
  cases e with
  | accept k =>
      by_cases hk : k = j
      · subst hk
        rfl
      · apply if_neg
        rintro ⟨hp, -⟩
        exact hk (List.mem_singleton.mp hp)
  | close => rfl
  | poll k =>
      obtain h | h := he
      · cases h
      · cases h
        rfl
  | _ => rcases he with h | h <;> cases h

/-- The same session, when the peer has opened a stream by the time the command is taken: the stream
of received streams accepts it and drops the guard. -/
theorem take_closes :
  let j : ReceivedStream := ⟨⟨1⟩, .uni, 0⟩
  let command : TerminateSessionCommand := ⟨⟨1⟩, 0, ""⟩
  ∃ s, machine.run TerminateState.init
      [.established ⟨1⟩, .poll j, .opens ⟨1⟩ .uni, .take command, .accept j, .close] = some s ∧
    [command] <+: s.calls
  := by
  intro j command
  have h : machine.run TerminateState.init [.established ⟨1⟩, .poll j, .opens ⟨1⟩ .uni] = some _ :=
    rfl
  refine ⟨_, rfl, (close_iff_free h rfl rfl).mpr (.inr ?_) [.accept j, .close] _ ?_ rfl ?_⟩
  · intro direction
    cases direction <;> decide
  · intro e he
    rcases List.mem_cons.mp he with rfl | he
    · exact id
    · cases List.mem_singleton.mp he
      exact id
  · intro e he
    cases e with
    | accept k => rfl
    | close => rfl
    | _ => cases he

end TerminateState

end WebTransport

end Cyclers
