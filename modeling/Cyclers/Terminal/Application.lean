import Cyclers.Async.Progress
import Cyclers.Run.Delivery
import Cyclers.Run.Outcome
import Cyclers.Terminal.Driver

/-!
# Applications of the terminal driver

An application with the terminal driver as its only one is a circle.  The items of the sink stream
of its `main` go through the proxy channel to the sink that the run loop of the driver and the
stream of lines share, and the lines come back to `main`.  `Main` is a `main` whose sink stream
takes the items of one stream of lines, whatever it makes of them.

The future that `run` returns and the driver with its stream of lines are the parts of the
application.  They step together: what the driver receives through the channel is what its sink
yields, and what its run loop returns is what its run loop future gives.
-/

open Async

namespace Cyclers

namespace Terminal

/-- A `main` function, by the sink stream that it returns: the states of the stream and the first
one of them, what the stream yields before it awaits a line, and how it takes an item, or the end,
of the stream of lines that it awaits. -/
structure Main (σ : Type) where
  start : σ
  poll : σ → Option (Option (Except BoxError TerminalCommand) × σ)
  line : σ → Option Line → σ

/-- The future that `run` returns for the terminal driver. -/
abbrev RunFuture :=
  @Cyclers.RunState 0 (fun _ => TerminalCommand) (fun _ => ExitCode) BoxError

/-- An event of the future that `run` returns for the terminal driver. -/
abbrev RunFutureEvent :=
  @Cyclers.RunEvent 0 (fun _ => TerminalCommand) (fun _ => ExitCode) BoxError

/-- The future that `run` returns for the terminal driver, as a machine. -/
abbrev RunFuture.machine : Machine RunFuture RunFutureEvent :=
  Cyclers.RunState.machine (fun _ => TerminalCommand) (fun _ => ExitCode) BoxError

/-- An application: the future that `run` returns, the driver with its stream of lines, and the sink
stream of `main`. -/
structure Application (σ : Type) where
  run : RunFuture
  terminal : TerminalState
  main : σ

/-- The lane that connects the sink stream to the driver. -/
def Application.lane {σ : Type} (s : Application σ) : Lane TerminalCommand :=
  s.run.lanes 0

/-- What happens in an application: the sink stream of `main` yields an item, or ends; a slot of the
proxy channel is reserved; the shared sink polls the receiver of the channel, or drops it; the
driver or its stream of lines goes on. -/
inductive ApplicationEvent where
  | sink : Option (Except BoxError TerminalCommand) → ApplicationEvent
  | reserve
  | recv
  | dropReceiver
  | runNext
  | outputDone
  | linesNext
  | line
  deriving DecidableEq

/-- What a stream of lines yields when it goes on from `l` to `l'`. -/
def LinesState.yields (l l' : LinesState) : Poll (Option Line) :=
  match l'.items[l.items.length]? with
  | some line => .ready (some line)
  | none => if l'.task = .ended then .ready none else .pending

/-- Whether the run loop awaits a command that the shared sink has not received. -/
def RunState.awaits (r : RunState) (sink : List TerminalCommand) : Bool :=
  r.loop = .next ∧ r.taken = sink.length

/-- Whether the stream of lines awaits a command that the shared sink has not received. -/
def LinesState.awaits (l : LinesState) (sink : List TerminalCommand) : Bool :=
  l.task = .next ∧ l.taken = sink.length

namespace Main

variable {σ : Type} (m : Main σ)

/-- The sink stream of `main` takes what the stream of lines yields. -/
def take (s : σ) : Poll (Option Line) → σ
  | .pending => s
  | .ready item => m.line s item

/-- The application before anything has happened. -/
def setup : Application σ where
  run := Cyclers.RunState.setupPartial _ _ _
  terminal := .init
  main := m.start

/-- Whether the stream of lines is polled: the loop over the sink stream awaits its next item, and
the sink stream awaits a line. -/
def polls (s : Application σ) : Bool :=
  (s.run.lanes 0).proxy = .next ∧ (m.poll s.main).isNone

/-- The driver goes on to `terminal`, and the run loop future completes when the run loop has
returned. -/
def drive (s : Application σ) (terminal : TerminalState) : Option (Application σ) :=
  match terminal.run.loop with
  | .returned result =>
      (s.run.step (.driver 0 result)).map fun run => { s with run := run, terminal := terminal }
  | _ => some { s with terminal := terminal }

/-- The stream of lines goes on to `terminal`, and the sink stream takes what it yields. -/
def takeLine (s : Application σ) (terminal : TerminalState) : Application σ :=
  { s with
    terminal := terminal
    main := m.take s.main (s.terminal.lines.yields terminal.lines) }

/-- The shared sink polls the receiver of the proxy channel, and passes on what it gives. -/
def recv (io : Stdio) (s : Application σ) : Option (Application σ) :=
  match (s.run.lanes 0).channel.recv with
  | .pending => none
  | .ready (some (command, _)) =>
      (s.run.step (.lane 0 .recv)).bind fun run =>
        (s.terminal.step io (.command command)).map fun terminal =>
          { s with run := run, terminal := terminal }
  | .ready none =>
      (s.run.step (.lane 0 .recv)).bind fun run =>
        (s.terminal.step io .sinkEnd).map fun terminal =>
          { s with run := run, terminal := terminal }

/-- One event of the application, when it can happen.  Nothing happens any more once the future that
`run` returns has an outcome.  The shared sink polls the receiver when one of its subscribers awaits
a command, and only once the run loop has returned can it be dropped. -/
def step (io : Stdio) (s : Application σ) (e : ApplicationEvent) : Option (Application σ) :=
  match s.run.outcome with
  | some _ => none
  | none =>
      match e with
      | .sink item =>
          match m.poll s.main with
          | some (item', main) =>
              if item = item' then
                (s.run.step (.lane 0 (.sink item))).map fun run =>
                  { s with run := run, main := main }
              else none
          | none => none
      | .reserve => (s.run.step (.lane 0 .reserve)).map fun run => { s with run := run }
      | .recv =>
          if s.terminal.run.awaits s.terminal.sink ∨
              m.polls s ∧ s.terminal.lines.awaits s.terminal.sink then recv io s
          else none
      | .dropReceiver =>
          match s.terminal.run.loop with
          | .returned _ =>
              (s.run.step (.lane 0 .dropReceiver)).map fun run => { s with run := run }
          | _ => none
      | .runNext => (s.terminal.step io .runNext).bind (drive s)
      | .outputDone => (s.terminal.step io .outputDone).bind (drive s)
      | .linesNext =>
          if m.polls s then (s.terminal.step io .linesNext).map (m.takeLine s) else none
      | .line => if m.polls s then (s.terminal.step io .line).map (m.takeLine s) else none

/-- The application as a machine. -/
def machine (io : Stdio) : Machine (Application σ) ApplicationEvent where
  step := m.step io

end Main

/-! ### The future that is run -/

namespace RunFuture

variable {s t : RunFuture}

/-- What an event of the lane does to the future. -/
theorem lane_cases {e : LaneEvent TerminalCommand BoxError} (h : s.step (.lane 0 e) = some t) :
  ∃ p, Lane.Step (s.lanes 0) e (t.lanes 0) p ∧ t.aggregate = s.aggregate ∧
    t.proxy = match p with
      | .pending => s.proxy
      | .ready (some (.ok ())) => .loop
      | .ready (some (.error err)) => .ret (.error err)
      | .ready none => .ret (.ok ())
  := by
  have hs : RunFuture.machine.step s (.lane 0 e) = some t := h
  cases Cyclers.RunState.step_of_machine hs with
  | lane _ _ l p _ hl =>
      have hstep := Lane.step_of_poll hl
      use p
      refine ⟨?_, rfl, ?_⟩
      · change Lane.Step (s.lanes 0) e (Function.update s.lanes 0 l 0) p
        rw [Function.update_self]
        exact hstep
      · rw [Cyclers.RunState.proxy_pollProxy]
        rcases p with _ | _ | _ | _
        · rfl
        · apply if_pos
          intro j
          rw [Fin.fin_one_eq_zero j, Function.update_self]
          apply Cyclers.RunState.isEnded_eq_true.mpr hstep.proxy_ended
        · rfl
        · rfl

/-- What the completion of the run loop future does to the future. -/
theorem driver_cases {result : Except BoxError ExitCode} (h : s.step (.driver 0 result) = some t) :
  t.lanes = s.lanes ∧ t.aggregate = .ret result ∧ t.proxy = s.proxy
  := by
  have hs : RunFuture.machine.step s (.driver 0 result) = some t := h
  generalize he : (.driver 0 result : RunFutureEvent) = e at hs
  cases Cyclers.RunState.step_of_machine hs with
  | fail i err _ _ _ =>
      obtain rfl := Fin.fin_one_eq_zero i
      cases he
      exact ⟨rfl, rfl, rfl⟩
  | head v _ _ _ =>
      cases he
      exact ⟨rfl, rfl, rfl⟩
  | tail i _ _ _ _ => exact i.elim0
  | driverEnd i _ _ _ => cases he
  | lane i _ _ _ _ _ => cases he

/-- An event of the lane that can happen is an event of the future, as long as it has no outcome. -/
theorem exists_lane (ho : s.outcome = none) {e : LaneEvent TerminalCommand BoxError}
    {l : Lane TerminalCommand} {p : Poll (Option (Except BoxError Unit))}
    (h : (s.lanes 0).poll e = some (l, p)) :
  ∃ t, s.step (.lane 0 e) = some t
  := by
  have hs : Cyclers.RunState.Step s (.lane 0 e) _ := .lane 0 e l p ho h
  exact ⟨_, hs.machine⟩

/-- The run loop future that has not completed can complete. -/
theorem exists_driver (ho : s.outcome = none) (ha : s.aggregate = .loop)
    (hf : s.futures 0 = .pending) (result : Except BoxError ExitCode) :
  ∃ t, s.step (.driver 0 result) = some t
  := by
  cases result with
  | error err =>
      have hs : Cyclers.RunState.Step s (.driver 0 (.error err)) _ := .fail 0 err ho ha hf
      exact ⟨_, hs.machine⟩
  | ok v =>
      have hs : Cyclers.RunState.Step s (.driver 0 (.ok v)) _ := .head v ho ha hf
      exact ⟨_, hs.machine⟩

end RunFuture

/-! ### The parts of an application -/

/-- The items of the sink stream of `main` that an event shows. -/
def ApplicationEvent.shows : ApplicationEvent → List (Except BoxError TerminalCommand)
  | .sink (some item) => [item]
  | _ => []

/-- The items of the sink stream that an event of the future that is run shows. -/
def RunFutureEvent.shows : RunFutureEvent → List (Except BoxError TerminalCommand)
  | .lane _ (.sink (some item)) => [item]
  | _ => []

/-- What the sink stream of `main` has yielded. -/
def yielded (tr : List ApplicationEvent) : List (Except BoxError TerminalCommand) :=
  tr.flatMap ApplicationEvent.shows

/-- The commands among the items of a sink stream. -/
def commands (items : List (Except BoxError TerminalCommand)) : List TerminalCommand :=
  items.filterMap Except.toOption

namespace Main

variable {σ : Type} {m : Main σ} {io : Stdio} {s t : Application σ}

/-- How an application goes on, and the items that the sink stream yields, one case for each way. -/
inductive Goes (m : Main σ) (io : Stdio) (s : Application σ) :
    List (Except BoxError TerminalCommand) → Application σ → Prop where
  | sink (item : Option (Except BoxError TerminalCommand)) (main : σ) (run : RunFuture) :
      m.poll s.main = some (item, main) → s.run.step (.lane 0 (.sink item)) = some run →
      Goes m io s item.toList { s with run := run, main := main }
  | reserve (run : RunFuture) : s.run.step (.lane 0 .reserve) = some run →
      Goes m io s [] { s with run := run }
  | recv (command : TerminalCommand) (c : Mpsc TerminalCommand sinkProxyBufferLen)
      (run : RunFuture) (terminal : TerminalState) :
      (s.run.lanes 0).channel.recv = .ready (some (command, c)) →
      s.run.step (.lane 0 .recv) = some run →
      s.terminal.step io (.command command) = some terminal →
      Goes m io s [] { s with run := run, terminal := terminal }
  | eos (run : RunFuture) (terminal : TerminalState) :
      (s.run.lanes 0).channel.recv = .ready none → s.run.step (.lane 0 .recv) = some run →
      s.terminal.step io .sinkEnd = some terminal →
      Goes m io s [] { s with run := run, terminal := terminal }
  | drop (result : Except BoxError ExitCode) (run : RunFuture) :
      s.terminal.run.loop = .returned result →
      s.run.step (.lane 0 .dropReceiver) = some run → Goes m io s [] { s with run := run }
  | turn (e : TerminalEvent) (terminal : TerminalState) : e.OfRun →
      s.terminal.step io e = some terminal → (∀ result, terminal.run.loop ≠ .returned result) →
      Goes m io s [] { s with terminal := terminal }
  | exit (e : TerminalEvent) (terminal : TerminalState) (result : Except BoxError ExitCode)
      (run : RunFuture) : e.OfRun → s.terminal.step io e = some terminal →
      terminal.run.loop = .returned result → s.run.step (.driver 0 result) = some run →
      Goes m io s [] { s with run := run, terminal := terminal }
  | lines (e : TerminalEvent) (terminal : TerminalState) : e.OfLines → m.polls s = true →
      s.terminal.step io e = some terminal → Goes m io s [] (m.takeLine s terminal)

/-- The run loop goes on. -/
theorem goes_of_drive {e : TerminalEvent} (he : e.OfRun)
    (h : (s.terminal.step io e).bind (drive s) = some t) :
  Goes m io s [] t
  := by
  obtain ⟨terminal, hterminal, hdrive⟩ := Option.bind_eq_some_iff.mp h
  rw [drive] at hdrive
  split at hdrive
  · rename_i result hloop
    obtain ⟨run, hrun, rfl⟩ := Option.map_eq_some_iff.mp hdrive
    apply Goes.exit e terminal result run he hterminal hloop hrun
  · rename_i hloop
    obtain rfl := Option.some.inj hdrive
    apply Goes.turn e terminal he hterminal hloop

/-- The stream of lines goes on. -/
theorem goes_of_takeLine {e : TerminalEvent} (he : e.OfLines)
    (h : (if m.polls s then (s.terminal.step io e).map (m.takeLine s) else none) = some t) :
  Goes m io s [] t
  := by
  split at h
  · rename_i hpolls
    obtain ⟨terminal, hterminal, rfl⟩ := Option.map_eq_some_iff.mp h
    apply Goes.lines e terminal he hpolls hterminal
  · cases h

/-- The shared sink goes on. -/
theorem goes_of_recv (h : recv io s = some t) :
  Goes m io s [] t
  := by
  rw [recv] at h
  split at h
  · cases h
  · rename_i command c hrecv
    obtain ⟨run, hrun, h⟩ := Option.bind_eq_some_iff.mp h
    obtain ⟨terminal, hterminal, rfl⟩ := Option.map_eq_some_iff.mp h
    apply Goes.recv command c run terminal hrecv hrun hterminal
  · rename_i hrecv
    obtain ⟨run, hrun, h⟩ := Option.bind_eq_some_iff.mp h
    obtain ⟨terminal, hterminal, rfl⟩ := Option.map_eq_some_iff.mp h
    apply Goes.eos run terminal hrecv hrun hterminal

/-- The machine goes on in the ways of `Goes`, while there is no outcome. -/
theorem goes_of_step {e : ApplicationEvent} (h : (m.machine io).step s e = some t) :
  s.run.outcome = none ∧ Goes m io s e.shows t
  := by
  change m.step io s e = some t at h
  unfold step at h
  split at h
  · cases h
  · rename_i ho
    refine ⟨ho, ?_⟩
    cases e with
    | sink item =>
        dsimp only at h
        split at h
        · rename_i item' main hpoll
          split at h
          · rename_i hitem
            subst hitem
            obtain ⟨run, hrun, rfl⟩ := Option.map_eq_some_iff.mp h
            have hgoes : Goes m io s item.toList _ := Goes.sink item main run hpoll hrun
            cases item <;> exact hgoes
          · cases h
        · cases h
    | reserve =>
        obtain ⟨run, hrun, rfl⟩ := Option.map_eq_some_iff.mp h
        apply Goes.reserve run hrun
    | recv =>
        dsimp only at h
        split at h
        · apply goes_of_recv h
        · cases h
    | dropReceiver =>
        dsimp only at h
        split at h
        · rename_i result hloop
          obtain ⟨run, hrun, rfl⟩ := Option.map_eq_some_iff.mp h
          apply Goes.drop result run hloop hrun
        · cases h
    | runNext => apply goes_of_drive (Or.inl rfl) h
    | outputDone => apply goes_of_drive (Or.inr rfl) h
    | linesNext => apply goes_of_takeLine (Or.inl rfl) h
    | line => apply goes_of_takeLine (Or.inr rfl) h

/-- The driver with its stream of lines makes a run of its own with an application. -/
theorem terminal_part (m : Main σ) (io : Stdio) :
  Machine.Part (m.machine io) (TerminalState.machine io) Application.terminal
    (fun _ => ([] : List Unit)) (fun _ => [])
  := by
  constructor
  intro s e t h
  have hone : ∀ (e : TerminalEvent) (u : TerminalState), s.terminal.step io e = some u →
      ∃ tr, (TerminalState.machine io).run s.terminal tr = some u ∧
        (tr.flatMap fun _ => ([] : List Unit)) = [] := by
    intro e u hu
    use [e]
    refine ⟨?_, rfl⟩
    rw [Machine.run_cons]
    change (s.terminal.step io e).bind _ = _
    rw [hu]
    rfl
  have hgoes := (goes_of_step h).2
  generalize e.shows = shown at hgoes
  cases hgoes with
  | sink | reserve | drop =>
      use []
      exact ⟨rfl, rfl⟩
  | recv command c run terminal _ _ hterminal => apply hone _ _ hterminal
  | eos run terminal _ _ hterminal => apply hone _ _ hterminal
  | turn e terminal _ hterminal _ => apply hone _ _ hterminal
  | exit e terminal result run _ hterminal _ _ => apply hone _ _ hterminal
  | lines e terminal _ _ hterminal => apply hone _ _ hterminal

/-- The future that is run makes a run of its own with an application, and its sink stream yields
what that of `main` does. -/
theorem run_part (m : Main σ) (io : Stdio) :
  Machine.Part (m.machine io) RunFuture.machine Application.run ApplicationEvent.shows
    RunFutureEvent.shows
  := by
  constructor
  intro s e t h
  have hone : ∀ (e : RunFutureEvent) (u : RunFuture), s.run.step e = some u →
      ∃ tr, RunFuture.machine.run s.run tr = some u ∧
        tr.flatMap RunFutureEvent.shows = RunFutureEvent.shows e := by
    intro e u hu
    use [e]
    constructor
    · rw [Machine.run_cons]
      change (s.run.step e).bind _ = _
      rw [hu]
      rfl
    · apply List.flatMap_singleton
  have hgoes := (goes_of_step h).2
  generalize e.shows = shown at hgoes
  cases hgoes with
  | sink item main run _ hrun =>
      obtain ⟨tr, htr, hshows⟩ := hone _ _ hrun
      use tr, htr
      rw [hshows]
      cases item <;> rfl
  | reserve run hrun => apply hone _ _ hrun
  | recv _ _ run _ _ hrun _ => apply hone _ _ hrun
  | eos run _ _ hrun _ => apply hone _ _ hrun
  | drop _ run _ hrun => apply hone _ _ hrun
  | turn =>
      use []
      exact ⟨rfl, rfl⟩
  | exit _ _ _ run _ _ _ hrun => apply hone _ _ hrun
  | lines =>
      use []
      exact ⟨rfl, rfl⟩

end Main

/-! ### What ties the parts together -/

/-- What the aggregate run loop future does, by the run loop of the driver. -/
def RunLoop.aggregate : RunLoop → Turn (Except BoxError ExitCode)
  | .returned result => .ret result
  | _ => .loop

theorem RunLoop.aggregate_of_ne {loop : RunLoop} (h : ∀ result, loop ≠ .returned result) :
  loop.aggregate = .loop
  := by
  cases loop with
  | returned result => exact absurd rfl (h result)
  | _ => rfl

namespace TerminalState

variable {io : Stdio} {s t : TerminalState} {e : TerminalEvent}

/-- A step of the run loop leaves the sink and the stream of lines as they are; the run loop had
not returned. -/
theorem step_run (he : e.OfRun) (h : s.step io e = some t) :
  t.sink = s.sink ∧ t.sinkEnded = s.sinkEnded ∧ t.lines = s.lines ∧ s.run.loop.aggregate = .loop
  := by
  have hloop : ∀ result, s.run.loop ≠ .returned result := by
    intro result hreturned
    obtain ⟨hnext, hdone⟩ :=
      @RunState.eq_none_of_returned io s.sink s.sinkEnded s.run result hreturned
    rcases he with rfl | rfl
    · rw [step, hnext] at h
      cases h
    · rw [step, hdone] at h
      cases h
  have haggregate := RunLoop.aggregate_of_ne hloop
  rcases he with rfl | rfl <;> obtain ⟨run, -, rfl⟩ := Option.map_eq_some_iff.mp h <;>
    exact ⟨rfl, rfl, rfl, haggregate⟩

/-- A step of the stream of lines leaves the sink and the run loop as they are. -/
theorem step_lines (he : e.OfLines) (h : s.step io e = some t) :
  t.sink = s.sink ∧ t.sinkEnded = s.sinkEnded ∧ t.run = s.run
  := by
  rcases he with rfl | rfl <;> obtain ⟨lines, -, rfl⟩ := Option.map_eq_some_iff.mp h <;>
    exact ⟨rfl, rfl, rfl⟩

/-- The sink yields a command. -/
theorem step_command {command : TerminalCommand} (h : s.step io (.command command) = some t) :
  s.sinkEnded = false ∧ t = { s with sink := s.sink ++ [command] }
  := by
  rw [step] at h
  split at h
  · cases h
  · exact ⟨Bool.not_eq_true _ ▸ ‹_›, (Option.some.inj h).symm⟩

/-- The sink ends. -/
theorem step_sinkEnd (h : s.step io .sinkEnd = some t) :
  s.sinkEnded = false ∧ t = { s with sinkEnded := true }
  := by
  rw [step] at h
  split at h
  · cases h
  · exact ⟨Bool.not_eq_true _ ▸ ‹_›, (Option.some.inj h).symm⟩

end TerminalState

namespace Main

variable {σ : Type} {m : Main σ} {io : Stdio} {s t : Application σ}

/-- How the stream of lines goes on, and what the sink stream takes of it: it takes a command and
yields nothing, it yields a line, or it ends. -/
theorem takeLine_cases {e : TerminalEvent} {terminal : TerminalState} (he : e.OfLines)
    (h : s.terminal.step io e = some terminal) (m : Main σ) :
  (∃ command, s.terminal.lines.task = .next ∧
      s.terminal.sink[s.terminal.lines.taken]? = some command ∧
      m.takeLine s terminal =
        { s with terminal := { s.terminal with lines := s.terminal.lines.take command } }) ∨
    (∃ line, s.terminal.lines.task = .line ∧
      io.lines[s.terminal.lines.items.length]? = some line ∧
      m.takeLine s terminal =
        { s with
          terminal := { s.terminal with
            lines := { s.terminal.lines with
              task := .next
              items := s.terminal.lines.items ++ [line] } }
          main := m.line s.main (some line) }) ∨
    ((s.terminal.lines.task = .next ∧ s.terminal.sinkEnded = true ∨
        s.terminal.lines.task = .line ∧ io.lines.length ≤ s.terminal.lines.items.length) ∧
      m.takeLine s terminal =
        { s with
          terminal := { s.terminal with lines := { s.terminal.lines with task := .ended } }
          main := m.line s.main none })
  := by
  have hends : s.terminal.lines.yields { s.terminal.lines with task := .ended } = .ready none := by
    rw [LinesState.yields, List.getElem?_eq_none (Nat.le_refl _)]
    rfl
  rcases he with rfl | rfl <;> obtain ⟨lines, hlines, rfl⟩ := Option.map_eq_some_iff.mp h
  · obtain ⟨htask, ⟨command, hget, rfl⟩ | ⟨-, hended, rfl⟩⟩ := LinesState.next_cases hlines
    · left
      use command, htask, hget
      have hitems : (s.terminal.lines.take command).items = s.terminal.lines.items := by
        cases command <;> rfl
      have hnot : (s.terminal.lines.take command).task ≠ .ended := by
        cases command with
        | readLine =>
            intro hended
            cases hended
        | _ =>
            intro hended
            cases htask.symm.trans hended
      have hyields : s.terminal.lines.yields (s.terminal.lines.take command) = .pending := by
        rw [LinesState.yields, hitems, List.getElem?_eq_none (Nat.le_refl _)]
        exact if_neg hnot
      rw [takeLine, hyields]
      rfl
    · right
      right
      refine ⟨Or.inl ⟨htask, hended⟩, ?_⟩
      rw [takeLine, hends]
      rfl
  · obtain ⟨htask, ⟨line, hget, rfl⟩ | ⟨hle, rfl⟩⟩ := LinesState.line_cases hlines
    · right
      left
      use line, htask, hget
      have hyields : s.terminal.lines.yields
          { s.terminal.lines with task := .next, items := s.terminal.lines.items ++ [line] } =
            .ready (some line) := by
        rw [LinesState.yields, List.getElem?_concat_length]
      rw [takeLine, hyields]
      rfl
    · right
      right
      refine ⟨Or.inr ⟨htask, hle⟩, ?_⟩
      rw [takeLine, hends]
      rfl

/-- What ties the parts of an application together, when the sink stream of `main` has yielded
`items`: what is received through the proxy channel is what the sink of the driver yields, what the
run loop returns is what the aggregate run loop future does, and the proxy future fails with an
error of the sink stream. -/
structure Tied (items : List (Except BoxError TerminalCommand)) (s : Application σ) : Prop where
  received : (s.run.lanes 0).received = s.terminal.sink
  eos : (s.run.lanes 0).eos = s.terminal.sinkEnded
  aggregate : s.run.aggregate = s.terminal.run.loop.aggregate
  proxy : ∀ err, s.run.proxy = .ret (.error err) → .error err ∈ items

theorem Tied.init (m : Main σ) :
  Tied [] m.setup
  := by
  refine ⟨rfl, rfl, rfl, ?_⟩
  intro err h
  cases h

/-- An event of the lane but a poll of the receiver. -/
theorem Tied.lane {items : List (Except BoxError TerminalCommand)} (h : Tied items s)
    {e : LaneEvent TerminalCommand BoxError} {run : RunFuture} (he : e ≠ .recv)
    (hrun : s.run.step (.lane 0 e) = some run) {shown : List (Except BoxError TerminalCommand)}
    (hshown : ∀ err, e = .sink (some (.error err)) → .error err ∈ shown) (main : σ) :
  Tied (items ++ shown) ⟨run, s.terminal, main⟩
  := by
  obtain ⟨p, hlane, haggregate, hproxy⟩ := RunFuture.lane_cases hrun
  have hkeeps : (run.lanes 0).received = (s.run.lanes 0).received ∧
      (run.lanes 0).eos = (s.run.lanes 0).eos := by
    generalize run.lanes 0 = l at hlane ⊢
    cases hlane with
    | recv => exact absurd rfl he
    | eos => exact absurd rfl he
    | _ => exact ⟨rfl, rfl⟩
  have hfail : ∀ err, run.proxy = .ret (.error err) →
      s.run.proxy = .ret (.error err) ∨ e = .sink (some (.error err)) := by
    intro err herr
    rw [herr] at hproxy
    generalize run.lanes 0 = l at hlane
    cases hlane with
    | fail err' _ =>
        right
        cases hproxy
        rfl
    | send | disconnect | finish => cases hproxy
    | _ => exact Or.inl hproxy.symm
  refine ⟨hkeeps.1.trans h.received, hkeeps.2.trans h.eos, haggregate.trans h.aggregate, ?_⟩
  intro err herr
  rw [List.mem_append]
  rcases hfail err herr with hold | hnew
  · exact Or.inl (h.proxy err hold)
  · exact Or.inr (hshown err hnew)

/-- The parts stay tied together. -/
theorem Tied.step {items shown : List (Except BoxError TerminalCommand)} (h : Tied items s)
    (hgoes : Goes m io s shown t) :
  Tied (items ++ shown) t
  := by
  cases hgoes with
  | sink item main run hpoll hrun =>
      refine h.lane (by intro he; cases he) hrun ?_ main
      intro err he
      cases he
      exact List.mem_singleton_self _
  | reserve run hrun =>
      refine h.lane (by intro he; cases he) hrun ?_ s.main
      intro err he
      cases he
  | recv command c run terminal hrecv hrun hterminal =>
      obtain ⟨-, rfl⟩ := TerminalState.step_command hterminal
      obtain ⟨p, hlane, haggregate, hproxy⟩ := RunFuture.lane_cases hrun
      rw [List.append_nil]
      generalize hl : run.lanes 0 = l at hlane
      cases hlane with
      | recv x c' _ hx =>
          rw [hrecv] at hx
          cases hx
          refine ⟨?_, ?_, haggregate.trans h.aggregate, ?_⟩
          · rw [hl, ← h.received]
          · rw [hl]
            exact h.eos
          · intro err herr
            apply h.proxy err (Eq.trans hproxy.symm herr)
      | eos _ hx =>
          rw [hrecv] at hx
          cases hx
  | eos run terminal hrecv hrun hterminal =>
      obtain ⟨-, rfl⟩ := TerminalState.step_sinkEnd hterminal
      obtain ⟨p, hlane, haggregate, hproxy⟩ := RunFuture.lane_cases hrun
      rw [List.append_nil]
      generalize hl : run.lanes 0 = l at hlane
      cases hlane with
      | recv x c' _ hx =>
          rw [hrecv] at hx
          cases hx
      | eos _ _ =>
          refine ⟨?_, ?_, haggregate.trans h.aggregate, ?_⟩
          · rw [hl]
            exact h.received
          · rw [hl]
          · intro err herr
            apply h.proxy err (Eq.trans hproxy.symm herr)
  | drop result run hloop hrun =>
      refine h.lane (by intro he; cases he) hrun ?_ s.main
      intro err he
      cases he
  | turn e terminal he hterminal hloop =>
      obtain ⟨hsink, hended, -, hold⟩ := TerminalState.step_run he hterminal
      rw [List.append_nil]
      refine ⟨hsink ▸ h.received, hended ▸ h.eos, ?_, h.proxy⟩
      rw [RunLoop.aggregate_of_ne hloop, ← hold]
      exact h.aggregate
  | exit e terminal result run he hterminal hloop hrun =>
      obtain ⟨hsink, hended, -, hold⟩ := TerminalState.step_run he hterminal
      obtain ⟨hlanes, haggregate, hproxy⟩ := RunFuture.driver_cases hrun
      rw [List.append_nil]
      refine ⟨?_, ?_, ?_, ?_⟩
      · rw [hlanes, hsink]
        exact h.received
      · rw [hlanes, hended]
        exact h.eos
      · rw [hloop]
        exact haggregate
      · rw [hproxy]
        exact h.proxy
  | lines e terminal he hpolls hterminal =>
      obtain ⟨hsink, hended, hrun⟩ := TerminalState.step_lines he hterminal
      rw [List.append_nil]
      refine ⟨hsink ▸ h.received, hended ▸ h.eos, ?_, h.proxy⟩
      change s.run.aggregate = terminal.run.loop.aggregate
      rw [hrun]
      exact h.aggregate

/-- The parts are tied together in every state of every run. -/
theorem Tied.of_run {tr : List ApplicationEvent} (h : (m.machine io).run m.setup tr = some s) :
  Tied (yielded tr) s
  := by
  apply (m.machine io).run_induction (P := fun tr s => Tied (yielded tr) s) (Tied.init m) _ tr s h
  intro tr s e t _ hs ht
  rw [yielded, List.flatMap_append, List.flatMap_singleton]
  apply hs.step (goes_of_step ht).2

/-! ### What an application does -/

/-- The commands that the sink stream of a lane yields are those that its events show. -/
theorem okItems_laneEvents (tr : List RunFutureEvent) :
  Lane.okItems (Cyclers.laneEvents 0 tr) = commands (tr.flatMap RunFutureEvent.shows)
  := by
  induction tr with
  | nil => rfl
  | cons e tr ih =>
      have hone : Lane.okItems (Cyclers.laneEvents 0 [e]) =
          commands (RunFutureEvent.shows e) := by
        cases e with
        | driver i out => rfl
        | driverEnd i => rfl
        | lane i e =>
            obtain rfl := Fin.fin_one_eq_zero i
            rcases e with (_ | _ | _) | _ | _ | _ <;> rfl
      rw [List.flatMap_cons, commands, List.filterMap_append, ← List.singleton_append,
        Cyclers.laneEvents, List.filterMap_append, Lane.okItems_append]
      exact congrArg₂ _ hone ih

/-- The invariants of the future that is run and of its lane, along a run of an application. -/
theorem exists_inv {tr : List ApplicationEvent} (h : (m.machine io).run m.setup tr = some s) :
  ∃ tr', Cyclers.RunState.Inv tr' s.run ∧
    Lane.Inv (Cyclers.laneEvents 0 tr') (s.run.lanes 0) ∧
    Lane.okItems (Cyclers.laneEvents 0 tr') = commands (yielded tr)
  := by
  obtain ⟨tr', hrun, hshows⟩ := (run_part m io).run h
  use tr'
  refine ⟨Cyclers.RunState.Inv.of_run hrun, Cyclers.RunState.lane_inv hrun 0, ?_⟩
  rw [okItems_laneEvents, hshows]
  rfl

/-- The driver with its stream of lines follows the interpreter. -/
theorem follows_of_run {tr : List ApplicationEvent} (h : (m.machine io).run m.setup tr = some s) :
  s.terminal.Follows io
  := by
  obtain ⟨tr', hrun, -⟩ := (terminal_part m io).run h
  apply TerminalState.Follows.of_run hrun

/-- The sink of the driver yields the first commands that the sink stream of `main` has yielded, and
it ends only when it has yielded all of them. -/
theorem sink_mono {tr : List ApplicationEvent} (h : (m.machine io).run m.setup tr = some s) :
  s.terminal.sink <+: commands (yielded tr) ∧
    (s.terminal.sinkEnded = true → s.terminal.sink = commands (yielded tr))
  := by
  obtain ⟨tr', -, hlane, hitems⟩ := exists_inv h
  have htied := Tied.of_run h
  rw [← hitems, ← htied.received, ← htied.eos]
  refine ⟨hlane.received_okItems, ?_⟩
  intro heos
  apply (hlane.eos heos).2.2.2.symm

/-- What an interpreter gives for some commands it gives for more of them, unless it gives it for
their end. -/
theorem returns_mono {commands all : List TerminalCommand} {ended : Bool}
    {result : Except BoxError ExitCode} (hmono : commands <+: all)
    (hended : ended = true → commands = all)
    (h : (interpret io commands).returns ended = some result) :
  (interpret io commands).outputs = (interpret io all).outputs ∧
    (interpret io all).returns true = some result
  := by
  cases hresult : (interpret io commands).result with
  | some result' =>
      obtain ⟨rest, rfl⟩ := hmono
      obtain ⟨houtputs, hrest⟩ := @Interpreter.run_of_result io _ _ hresult rest
      rw [Interpreter.returns, hresult] at h
      rw [interpret_append, Interpreter.returns, hrest]
      exact ⟨houtputs.symm, h⟩
  | none =>
      rw [Interpreter.returns, hresult] at h
      cases hend : ended with
      | true =>
          rw [← hended hend, Interpreter.returns, hresult]
          rw [hend] at h
          exact ⟨rfl, h⟩
      | false =>
          rw [hend] at h
          cases h

/-- A run loop that has returned has done all that the interpreter does with what the sink stream of
`main` has yielded, and returned its result. -/
theorem returned_of_run {tr : List ApplicationEvent} (h : (m.machine io).run m.setup tr = some s)
    {result : Except BoxError ExitCode} (hloop : s.terminal.run.loop = .returned result) :
  s.terminal.run.performed = (interpret io (commands (yielded tr))).outputs ∧
    (interpret io (commands (yielded tr))).returns true = some result
  := by
  obtain ⟨hmono, hended⟩ := sink_mono h
  obtain ⟨hperformed, hreturns⟩ := (follows_of_run h).run.returned hloop
  obtain ⟨houtputs, hresult⟩ := returns_mono hmono hended hreturns
  exact ⟨hperformed.trans houtputs, hresult⟩

/-- A run loop whose future gives a result has returned it. -/
theorem Tied.returned {items : List (Except BoxError TerminalCommand)} (h : Tied items s)
    {result : Except BoxError ExitCode} (ha : s.run.aggregate = .ret result) :
  s.terminal.run.loop = .returned result
  := by
  rw [h.aggregate] at ha
  cases hloop : s.terminal.run.loop with
  | returned result' =>
      rw [hloop] at ha
      cases ha
      rfl
  | next | output | unreachable =>
      rw [hloop] at ha
      cases ha

/-- What an outcome of the future tells of the two futures that are joined. -/
theorem outcome_cases {run : RunFuture} {o : Outcome ExitCode BoxError}
    (h : run.outcome = some o) :
  match o with
  | .ok v => run.aggregate = .ret (.ok v) ∧ run.proxy = .ret (.ok ())
  | .err err => run.aggregate = .ret (.error err) ∨ run.proxy = .ret (.error err)
  | .panicked => run.aggregate = .panic ∨ run.proxy = .panic
  := by
  obtain ⟨futures, lanes, aggregate, proxy⟩ := run
  rcases aggregate with _ | ⟨_ | _⟩ | _ <;> rcases proxy with _ | ⟨_ | _⟩ | _ <;> cases h
  all_goals first | exact ⟨rfl, rfl⟩ | exact Or.inl rfl | exact Or.inr rfl

/-- An application refines the interpreter of the commands that the sink stream of its `main`
yields, whatever `main` makes of the lines, in every state of every run.  The outputs begun are the
first ones of the interpreter, and the lines that `main` has got are its first items.  When `run`
gives a termination value, the outputs are all those of the interpreter, and the value is its
result.  When `run` fails, it does so with the error that the interpreter gives or with an error
that the sink stream has yielded.  It does not panic. -/
theorem application_refines (m : Main σ) (io : Stdio) {tr : List ApplicationEvent}
    {s : Application σ} (h : (m.machine io).run m.setup tr = some s) :
  s.terminal.run.performed <+: (interpret io (commands (yielded tr))).outputs ∧
    s.terminal.lines.items <+: (interpret io (commands (yielded tr))).items ∧
    (∀ v, s.run.outcome = some (.ok v) →
      s.terminal.run.performed = (interpret io (commands (yielded tr))).outputs ∧
        (interpret io (commands (yielded tr))).returns true = some (.ok v)) ∧
    (∀ err, s.run.outcome = some (.err err) →
      (interpret io (commands (yielded tr))).returns true = some (.error err) ∨
        .error err ∈ yielded tr) ∧
    s.run.outcome ≠ some .panicked ∧ s.terminal.run.loop ≠ .unreachable
  := by
  obtain ⟨tr', hrun, -, -⟩ := exists_inv h
  have htied := Tied.of_run h
  have hfollows := follows_of_run h
  obtain ⟨⟨rest, hrest⟩, -⟩ := sink_mono h
  have hmono := (interpret io s.terminal.sink).run_mono io rest
  rw [← interpret_append, hrest] at hmono
  refine ⟨hfollows.run.performed_mono.trans hmono.1, hfollows.lines.items_mono.trans hmono.2,
    ?_, ?_, hrun.outcome_ne, hfollows.refines.reachable.1⟩
  · intro v hv
    apply returned_of_run h (htied.returned (outcome_cases hv).1)
  · intro err herr
    rcases outcome_cases herr with ha | hp
    · exact Or.inl (returned_of_run h (htied.returned ha)).2
    · exact Or.inr (htied.proxy err hp)

/-- The `main` whose sink stream yields some commands and takes no lines. -/
def ofCommands (commands : List TerminalCommand) : Main (List TerminalCommand) where
  start := commands
  poll
    | [] => some (none, [])
    | command :: rest => some (some (.ok command), rest)
  line s _ := s

/-- An application that writes and exits. -/
theorem application_refines_exit :
  ∃ s, ((ofCommands [.write "a", .exit 2]).machine ⟨fun _ => .ok (), []⟩).run
      (ofCommands [.write "a", .exit 2]).setup
      [.sink (some (.ok (.write "a"))), .reserve, .recv, .sink (some (.ok (.exit 2))), .runNext,
        .reserve, .outputDone, .recv, .runNext, .sink none] = some s ∧
    s.run.outcome = some (.ok 2) ∧ s.terminal.run.performed = [.write "a"] ∧
    (interpret ⟨fun _ => .ok (), []⟩ [.write "a", .exit 2]).returns true = some (.ok 2)
  := by
  refine ⟨_, rfl, rfl, rfl, ?_⟩
  have hrefines := @application_refines _ (ofCommands [.write "a", .exit 2]) ⟨fun _ => .ok (), []⟩
    [.sink (some (.ok (.write "a"))), .reserve, .recv, .sink (some (.ok (.exit 2))), .runNext,
      .reserve, .outputDone, .recv, .runNext, .sink none] _ rfl
  exact (hrefines.2.2.1 2 rfl).2


/-! ### How an application goes on -/

/-- A run loop that can go on makes the application go on. -/
theorem exists_turn {tr : List ApplicationEvent} (hr : (m.machine io).run m.setup tr = some s)
    (ho : s.run.outcome = none) {e : TerminalEvent} (he : e.OfRun) {terminal : TerminalState}
    (hterminal : s.terminal.step io e = some terminal) :
  ∃ e t, (m.machine io).step s e = some t
  := by
  obtain ⟨tr', hrun, -, -⟩ := exists_inv hr
  have hold : s.run.aggregate = .loop := by
    rw [(Tied.of_run hr).aggregate]
    apply (TerminalState.step_run he hterminal).2.2.2
  have hdrive : ∃ t, drive s terminal = some t := by
    rw [drive]
    split
    · rename_i result _
      obtain ⟨run, hs⟩ := RunFuture.exists_driver ho hold (hrun.head hold) result
      rw [hs]
      exact ⟨_, rfl⟩
    · exact ⟨_, rfl⟩
  obtain ⟨t, ht⟩ := hdrive
  rcases he with rfl | rfl
  · use .runNext, t
    change m.step io s .runNext = some t
    rw [step, ho]
    dsimp only
    rw [hterminal]
    exact ht
  · use .outputDone, t
    change m.step io s .outputDone = some t
    rw [step, ho]
    dsimp only
    rw [hterminal]
    exact ht

/-- A stream of lines that is polled and can go on makes the application go on. -/
theorem exists_takeLine (ho : s.run.outcome = none) (hpolls : m.polls s = true) {e : TerminalEvent}
    (he : e.OfLines) {terminal : TerminalState} (hterminal : s.terminal.step io e = some terminal) :
  ∃ e t, (m.machine io).step s e = some t
  := by
  rcases he with rfl | rfl
  · use .linesNext, m.takeLine s terminal
    change m.step io s .linesNext = some _
    rw [step, ho]
    dsimp only
    rw [if_pos hpolls, hterminal]
    rfl
  · use .line, m.takeLine s terminal
    change m.step io s .line = some _
    rw [step, ho]
    dsimp only
    rw [if_pos hpolls, hterminal]
    rfl

/-- A sink stream that is polled and has something to yield makes the application go on. -/
theorem exists_sink (ho : s.run.outcome = none) (hproxy : (s.run.lanes 0).proxy = .next)
    {item : Option (Except BoxError TerminalCommand)} {main : σ}
    (hpoll : m.poll s.main = some (item, main)) :
  ∃ e t, (m.machine io).step s e = some t
  := by
  have hlane : ∃ l p, (s.run.lanes 0).poll (.sink item) = some (l, p) := by
    rcases item with _ | _ | _ <;> simp [Lane.poll, hproxy]
  obtain ⟨l, p, hl⟩ := hlane
  obtain ⟨run, hrun⟩ := RunFuture.exists_lane ho hl
  use .sink item, { s with run := run, main := main }
  change m.step io s (.sink item) = some _
  rw [step, ho]
  dsimp only
  rw [hpoll]
  dsimp only
  rw [if_pos rfl, hrun]
  rfl

/-- A free slot of the proxy channel is reserved. -/
theorem exists_reserve (ho : s.run.outcome = none) {command : TerminalCommand}
    (hproxy : (s.run.lanes 0).proxy = .reserve command)
    (hreceiver : (s.run.lanes 0).channel.receiver = true)
    (hqueue : (s.run.lanes 0).channel.queue = []) :
  ∃ e t, (m.machine io).step s e = some t
  := by
  have hfree : (s.run.lanes 0).channel.queue.length < sinkProxyBufferLen := by
    rw [hqueue]
    exact Nat.one_pos
  obtain ⟨c, hc⟩ := Mpsc.exists_reserve hreceiver hfree command
  have hlane : (s.run.lanes 0).poll (.reserve : LaneEvent TerminalCommand BoxError) =
      some ({ s.run.lanes 0 with proxy := .next, channel := c }, .ready (some (.ok ()))) := by
    rw [Lane.poll, hproxy]
    dsimp only
    rw [hc]
  obtain ⟨run, hrun⟩ := RunFuture.exists_lane ho hlane
  use .reserve, { s with run := run }
  change m.step io s .reserve = some _
  rw [step, ho]
  dsimp only
  rw [hrun]
  rfl

/-- A run loop that awaits a command is given what the receiver of the proxy channel gives. -/
theorem exists_recv (ho : s.run.outcome = none) (hopen : s.terminal.sinkEnded = false)
    (hawaits : s.terminal.run.awaits s.terminal.sink = true)
    (hreceiver : (s.run.lanes 0).channel.receiver = true)
    (hready : (s.run.lanes 0).channel.recv ≠ .pending) :
  ∃ e t, (m.machine io).step s e = some t
  := by
  have hlane : ∃ l p, (s.run.lanes 0).poll (.recv : LaneEvent TerminalCommand BoxError) =
      some (l, p) := by
    rw [Lane.poll, if_pos hreceiver]
    split
    · cases hready ‹_›
    · exact ⟨_, _, rfl⟩
    · exact ⟨_, _, rfl⟩
  obtain ⟨l, p, hl⟩ := hlane
  obtain ⟨run, hrun⟩ := RunFuture.exists_lane ho hl
  have hnot : ¬ s.terminal.sinkEnded = true := by
    rw [hopen]
    exact Bool.false_ne_true
  have hrecv : ∃ t, recv io s = some t := by
    rw [recv]
    split
    · cases hready ‹_›
    · rename_i command c _
      rw [hrun]
      use { s with run := run, terminal := { s.terminal with sink := s.terminal.sink ++ [command] } }
      rw [Option.bind_some, TerminalState.step, if_neg hnot]
      rfl
    · rw [hrun]
      use { s with run := run, terminal := { s.terminal with sinkEnded := true } }
      rw [Option.bind_some, TerminalState.step, if_neg hnot]
      rfl
  obtain ⟨t, ht⟩ := hrecv
  use .recv, t
  change m.step io s .recv = some t
  rw [step, ho]
  dsimp only
  rw [if_pos (Or.inl hawaits)]
  exact ht

end Main

end Terminal

end Cyclers
