import Cyclers.Async.Machine
import Cyclers.Terminal.Interpreter

/-!
# The terminal driver

The run loop of the driver and a stream of lines of its source have the same sink.  Each takes the
commands in order, at its own pace, and passes over those that are for the other: the run loop does
the writes and flushes, until a command to exit or a failure, and the stream of lines awaits a line
for each command to read one.
-/

open Async

namespace Cyclers

namespace Terminal

/-- The run loop of the driver: it awaits the next command, it does an output, it has returned, or
it has reached what is unreachable. -/
inductive RunLoop where
  | next
  | output : Output → RunLoop
  | returned : Except BoxError ExitCode → RunLoop
  | unreachable
  deriving DecidableEq

/-- A stream of lines: it awaits the next command, it awaits a line, it has ended, or it has reached
what is unreachable. -/
inductive LinesTask where
  | next
  | line
  | ended
  | unreachable
  deriving DecidableEq

/-- The commands that the run loop does not pass over. -/
def runKeeps : TerminalCommand → Bool
  | .write _ => true
  | .flush => true
  | .exit _ => true
  | .readLine => false

/-- The commands that a stream of lines does not pass over. -/
def linesKeeps : TerminalCommand → Bool
  | .readLine => true
  | _ => false

/-- The run loop, the number of commands it has taken, and the outputs it has begun. -/
structure RunState where
  loop : RunLoop
  taken : ℕ
  performed : List Output

/-- A stream of lines, the number of commands it has taken, the number of reads it has begun, and
its items. -/
structure LinesState where
  task : LinesTask
  taken : ℕ
  reads : ℕ
  items : List Line

namespace RunState

/-- Take a command. -/
def take (r : RunState) (command : TerminalCommand) : RunState :=
  if runKeeps command then
    match command with
    | .write out =>
        { r with
          loop := .output (.write out)
          taken := r.taken + 1
          performed := r.performed ++ [.write out] }
    | .flush =>
        { r with
          loop := .output .flush
          taken := r.taken + 1
          performed := r.performed ++ [.flush] }
    | .exit exitCode => { r with loop := .returned (.ok exitCode), taken := r.taken + 1 }
    | .readLine => { r with loop := .unreachable, taken := r.taken + 1 }
  else { r with taken := r.taken + 1 }

/-- Take the next command, or return when the sink has ended. -/
def next (r : RunState) (sink : List TerminalCommand) (sinkEnded : Bool) : Option RunState :=
  if r.loop = .next then
    match sink[r.taken]? with
    | some command => some (r.take command)
    | none => if sinkEnded then some { r with loop := .returned (.ok exitSuccess) } else none
  else none

/-- The output is done: go on, or return its error. -/
def done (io : Stdio) (r : RunState) : Option RunState :=
  match r.loop with
  | .output _ =>
      match io.output r.performed with
      | .ok _ => some { r with loop := .next }
      | .error err => some { r with loop := .returned (.error err) }
  | _ => none

end RunState

namespace LinesState

/-- Take a command. -/
def take (l : LinesState) (command : TerminalCommand) : LinesState :=
  if linesKeeps command then
    match command with
    | .readLine => { l with task := .line, taken := l.taken + 1, reads := l.reads + 1 }
    | _ => { l with task := .unreachable, taken := l.taken + 1 }
  else { l with taken := l.taken + 1 }

/-- Take the next command, or end when the sink has ended. -/
def next (l : LinesState) (sink : List TerminalCommand) (sinkEnded : Bool) : Option LinesState :=
  if l.task = .next then
    match sink[l.taken]? with
    | some command => some (l.take command)
    | none => if sinkEnded then some { l with task := .ended } else none
  else none

/-- The reader of lines gives a line, which is yielded, or it ends. -/
def line (io : Stdio) (l : LinesState) : Option LinesState :=
  if l.task = .line then
    match io.lines[l.items.length]? with
    | some line => some { l with task := .next, items := l.items ++ [line] }
    | none => some { l with task := .ended }
  else none

end LinesState

/-- The driver and a stream of lines: the commands that the sink has yielded, and whether it has
ended; the run loop; and the stream. -/
structure TerminalState where
  sink : List TerminalCommand
  sinkEnded : Bool
  run : RunState
  lines : LinesState

/-- What happens: the sink yields a command, or ends; the run loop takes a command, or the end; an
output is done; the stream of lines takes a command, or the end; the reader gives a line, or
ends. -/
inductive TerminalEvent where
  | command : TerminalCommand → TerminalEvent
  | sinkEnd
  | runNext
  | outputDone
  | linesNext
  | line
  deriving DecidableEq

namespace TerminalState

/-- Nothing has happened. -/
def init : TerminalState where
  sink := []
  sinkEnded := false
  run := ⟨.next, 0, []⟩
  lines := ⟨.next, 0, 0, []⟩

/-- One event, when it can happen. -/
def step (io : Stdio) (s : TerminalState) : TerminalEvent → Option TerminalState
  | .command command =>
      if s.sinkEnded then none else some { s with sink := s.sink ++ [command] }
  | .sinkEnd => if s.sinkEnded then none else some { s with sinkEnded := true }
  | .runNext => (s.run.next s.sink s.sinkEnded).map fun run => { s with run := run }
  | .outputDone => (s.run.done io).map fun run => { s with run := run }
  | .linesNext => (s.lines.next s.sink s.sinkEnded).map fun lines => { s with lines := lines }
  | .line => (s.lines.line io).map fun lines => { s with lines := lines }

/-- The driver and the stream of lines as a machine. -/
def machine (io : Stdio) : Machine TerminalState TerminalEvent where
  step := step io

end TerminalState

/-! ### The run loop -/

namespace RunState

variable {io : Stdio} {sink : List TerminalCommand} {sinkEnded : Bool} {r r' : RunState}

/-- How the run loop takes the next command. -/
theorem next_cases (h : r.next sink sinkEnded = some r') :
  r.loop = .next ∧ ((∃ command, sink[r.taken]? = some command ∧ r' = r.take command) ∨
    (sink.length ≤ r.taken ∧ sinkEnded = true ∧
      r' = { r with loop := .returned (.ok exitSuccess) }))
  := by
  rw [next] at h
  split at h
  · rename_i hloop
    refine ⟨hloop, ?_⟩
    split at h
    · rename_i command hget
      exact Or.inl ⟨command, hget, (Option.some.inj h).symm⟩
    · rename_i hget
      split at h
      · exact Or.inr ⟨List.getElem?_eq_none_iff.mp hget, ‹_›, (Option.some.inj h).symm⟩
      · cases h
  · cases h

/-- How an output is done. -/
theorem done_cases (h : r.done io = some r') :
  (∃ op, r.loop = .output op) ∧
    r' = { r with loop := match io.output r.performed with
      | .ok _ => .next
      | .error err => .returned (.error err) }
  := by
  rw [done] at h
  split at h
  · rename_i op hloop
    refine ⟨⟨op, hloop⟩, ?_⟩
    split at h <;> exact (Option.some.inj h).symm
  · cases h

end RunState

/-- What the run loop does tells of the result of an interpreter, which `all` says has had all
commands of the sink. -/
def RunLoop.Tells (io : Stdio) (i : Interpreter) (all : Prop) : RunLoop → Prop
  | .next => i.result = none
  | .output _ => i.result = io.failure i.outputs
  | .returned result => i.result = some result ∨ i.result = none ∧ result = .ok exitSuccess ∧ all
  | .unreachable => False

theorem RunLoop.Tells.imp {io : Stdio} {i : Interpreter} {all all' : Prop} {loop : RunLoop}
    (h : loop.Tells io i all) (himp : all → all') :
  loop.Tells io i all'
  := by
  cases loop with
  | next => exact h
  | output op => exact h
  | returned result => exact h.imp_right fun ⟨hnone, hok, hall⟩ => ⟨hnone, hok, himp hall⟩
  | unreachable => exact h

namespace RunState

variable {io : Stdio} {sink : List TerminalCommand} {sinkEnded : Bool} {r r' : RunState}

/-- The run loop has done what the interpreter does with the commands that it has taken. -/
structure Follows (io : Stdio) (sink : List TerminalCommand) (sinkEnded : Bool) (r : RunState) :
    Prop where
  taken_le : r.taken ≤ sink.length
  performed : r.performed = (interpret io (sink.take r.taken)).outputs
  loop : r.loop.Tells io (interpret io (sink.take r.taken))
    (sinkEnded = true ∧ r.taken = sink.length)

theorem Follows.init (io : Stdio) :
  Follows io [] false ⟨.next, 0, []⟩
  := ⟨Nat.le_refl _, rfl, rfl⟩

/-- A command that the sink yields has not been taken. -/
theorem Follows.command (h : Follows io sink false r) (command : TerminalCommand) :
  Follows io (sink ++ [command]) false r
  := by
  have htake : (sink ++ [command]).take r.taken = sink.take r.taken :=
    List.take_append_of_le_length h.taken_le
  refine ⟨?_, ?_, ?_⟩
  · rw [List.length_append]
    apply Nat.le_add_right_of_le h.taken_le
  · rw [htake]
    exact h.performed
  · rw [htake]
    apply h.loop.imp
    rintro ⟨hended, -⟩
    cases hended

/-- The sink may end. -/
theorem Follows.sinkEnd (h : Follows io sink false r) :
  Follows io sink true r
  := by
  refine ⟨h.taken_le, h.performed, ?_⟩
  apply h.loop.imp
  rintro ⟨hended, -⟩
  cases hended

/-- The run loop begins an output as the interpreter does it. -/
theorem Follows.begin (h : Follows io sink sinkEnded r) (hlt : r.taken + 1 ≤ sink.length)
    (hresult : (interpret io (sink.take r.taken)).result = none) {op : Output}
    (hop : interpret io (sink.take (r.taken + 1)) =
      (interpret io (sink.take r.taken)).output io op) :
  Follows io sink sinkEnded ⟨.output op, r.taken + 1, r.performed ++ [op]⟩
  := by
  rw [Interpreter.output_of_none hresult, ← h.performed] at hop
  refine ⟨hlt, ?_, ?_⟩
  · rw [hop]
  · rw [hop]
    exact rfl

/-- The run loop takes a command as the interpreter does. -/
theorem Follows.take (h : Follows io sink sinkEnded r) (hloop : r.loop = .next)
    {command : TerminalCommand} (hget : sink[r.taken]? = some command) :
  Follows io sink sinkEnded (r.take command)
  := by
  have htake : interpret io (sink.take (r.taken + 1)) =
      (interpret io (sink.take r.taken)).handle io command := by
    rw [List.take_add_one, hget]
    apply interpret_concat
  have hlt : r.taken + 1 ≤ sink.length := (List.getElem?_eq_some_iff.mp hget).1
  have hresult : (interpret io (sink.take r.taken)).result = none := by
    have htells := h.loop
    rw [hloop] at htells
    exact htells
  cases command with
  | write out => apply h.begin hlt hresult htake
  | readLine =>
      refine ⟨hlt, ?_, ?_⟩
      · change r.performed = (interpret io (sink.take (r.taken + 1))).outputs
        rw [htake, h.performed]
        rfl
      · change r.loop.Tells io (interpret io (sink.take (r.taken + 1))) _
        rw [htake, hloop]
        exact hresult
  | flush => apply h.begin hlt hresult htake
  | exit exitCode =>
      refine ⟨hlt, ?_, ?_⟩
      · change r.performed = (interpret io (sink.take (r.taken + 1))).outputs
        rw [htake, h.performed]
        rfl
      · left
        change (interpret io (sink.take (r.taken + 1))).result = some (.ok exitCode)
        rw [htake, Interpreter.handle, hresult]
        rfl

/-- The run loop takes the next command, or the end, as the interpreter does. -/
theorem Follows.next (h : Follows io sink sinkEnded r) (hr : r.next sink sinkEnded = some r') :
  Follows io sink sinkEnded r'
  := by
  obtain ⟨hloop, ⟨command, hget, rfl⟩ | ⟨hle, hended, rfl⟩⟩ := next_cases hr
  · apply h.take hloop hget
  · refine ⟨h.taken_le, h.performed, ?_⟩
    have htells := h.loop
    rw [hloop] at htells
    right
    exact ⟨htells, rfl, hended, Nat.le_antisymm h.taken_le hle⟩

/-- What comes of an output is what the interpreter goes by. -/
theorem Follows.done (h : Follows io sink sinkEnded r) (hr : r.done io = some r') :
  Follows io sink sinkEnded r'
  := by
  obtain ⟨⟨op, hloop⟩, rfl⟩ := done_cases hr
  refine ⟨h.taken_le, h.performed, ?_⟩
  have htells := h.loop
  rw [hloop, RunLoop.Tells, ← h.performed, Stdio.failure] at htells
  cases hio : io.output r.performed with
  | ok u =>
      rw [hio] at htells
      exact htells
  | error err =>
      rw [hio] at htells
      left
      exact htells

/-- The run loop has begun the first outputs of the interpreter. -/
theorem Follows.performed_mono (h : Follows io sink sinkEnded r) :
  r.performed <+: (interpret io sink).outputs
  := by
  have hmono := (interpret io (sink.take r.taken)).run_mono io (sink.drop r.taken)
  rw [← interpret_append, List.take_append_drop] at hmono
  rw [h.performed]
  exact hmono.1

/-- A run loop that has returned has done all outputs of the interpreter, and returned its
result. -/
theorem Follows.returned (h : Follows io sink sinkEnded r) {result : Except BoxError ExitCode}
    (hloop : r.loop = .returned result) :
  r.performed = (interpret io sink).outputs ∧
    (interpret io sink).returns sinkEnded = some result
  := by
  have htells := h.loop
  rw [hloop] at htells
  rcases htells with hresult | ⟨hnone, rfl, hended, htaken⟩
  · have hrest := @Interpreter.run_of_result io _ _ hresult (sink.drop r.taken)
    rw [← interpret_append, List.take_append_drop] at hrest
    rw [h.performed, Interpreter.returns, hrest.2]
    exact ⟨hrest.1.symm, rfl⟩
  · rw [htaken, List.take_length] at hnone
    rw [h.performed, htaken, List.take_length, Interpreter.returns, hnone, hended]
    exact ⟨rfl, rfl⟩

/-- A run loop that cannot go on has done all outputs of the interpreter, and has returned if the
interpreter has a result. -/
theorem Follows.of_stuck (h : Follows io sink sinkEnded r) (hnext : r.next sink sinkEnded = none)
    (hdone : r.done io = none) :
  r.performed = (interpret io sink).outputs ∧
    ∀ result, r.loop = .returned result ↔ (interpret io sink).returns sinkEnded = some result
  := by
  have htells := h.loop
  cases hloop : r.loop with
  | next =>
      rw [RunState.next, if_pos hloop] at hnext
      rw [hloop] at htells
      split at hnext
      · cases hnext
      · rename_i hget
        split at hnext
        · cases hnext
        · rename_i hended
          have htaken : sink.take r.taken = sink :=
            List.take_of_length_le (List.getElem?_eq_none_iff.mp hget)
          rw [htaken] at htells
          rw [h.performed, htaken, Interpreter.returns, htells, if_neg hended]
          exact ⟨rfl, fun result => iff_of_false nofun nofun⟩
  | output op =>
      rw [RunState.done, hloop] at hdone
      dsimp only at hdone
      split at hdone <;> cases hdone
  | returned result =>
      obtain ⟨hperformed, hreturns⟩ := h.returned hloop
      refine ⟨hperformed, fun result' => ?_⟩
      rw [hreturns, Option.some.injEq, RunLoop.returned.injEq]
  | unreachable =>
      rw [hloop] at htells
      cases htells

/-- A run loop that has returned does nothing more. -/
theorem eq_none_of_returned {result : Except BoxError ExitCode} (h : r.loop = .returned result) :
  r.next sink sinkEnded = none ∧ r.done io = none
  := by
  rw [RunState.next, RunState.done, h]
  exact ⟨rfl, rfl⟩

end RunState

/-- How much of a command is left to do, and the end of the commands. -/
def RunLoop.left : RunLoop → ℕ
  | .next => 1
  | .output _ => 2
  | _ => 0

namespace RunState

variable {io : Stdio} {sink : List TerminalCommand} {sinkEnded : Bool} {r r' : RunState}

/-- How often the run loop may go on by itself. -/
def left (sink : List TerminalCommand) (r : RunState) : ℕ :=
  2 * (sink.length - r.taken) + r.loop.left

theorem left_next (hr : r.next sink sinkEnded = some r') :
  r'.left sink < r.left sink
  := by
  obtain ⟨hloop, ⟨command, hget, rfl⟩ | ⟨-, -, rfl⟩⟩ := next_cases hr
  · have hlt : r.taken < sink.length := (List.getElem?_eq_some_iff.mp hget).1
    have htaken : (r.take command).taken = r.taken + 1 := by cases command <;> rfl
    have hleft : (r.take command).loop.left ≤ 2 := by
      cases command with
      | readLine =>
          change r.loop.left ≤ 2
          rw [hloop]
          exact Nat.le_succ 1
      | _ => exact Nat.le_of_ble_eq_true rfl
    rw [left, left, htaken, hloop, RunLoop.left]
    omega
  · rw [left, left, hloop]
    exact Nat.lt_succ_self _

theorem left_done (hr : r.done io = some r') :
  r'.left sink < r.left sink
  := by
  obtain ⟨⟨op, hloop⟩, rfl⟩ := done_cases hr
  rw [left, left, hloop]
  cases io.output r.performed with
  | ok u => exact Nat.lt_succ_self _
  | error err => exact Nat.lt_add_of_pos_right Nat.two_pos

end RunState

/-! ### The stream of lines -/

namespace LinesState

variable {io : Stdio} {sink : List TerminalCommand} {sinkEnded : Bool} {l l' : LinesState}

/-- How the stream takes the next command. -/
theorem next_cases (h : l.next sink sinkEnded = some l') :
  l.task = .next ∧ ((∃ command, sink[l.taken]? = some command ∧ l' = l.take command) ∨
    (sink.length ≤ l.taken ∧ sinkEnded = true ∧ l' = { l with task := .ended }))
  := by
  rw [next] at h
  split at h
  · rename_i htask
    refine ⟨htask, ?_⟩
    split at h
    · rename_i command hget
      exact Or.inl ⟨command, hget, (Option.some.inj h).symm⟩
    · rename_i hget
      split at h
      · exact Or.inr ⟨List.getElem?_eq_none_iff.mp hget, ‹_›, (Option.some.inj h).symm⟩
      · cases h
  · cases h

/-- How the stream gets a line, or the end of the lines. -/
theorem line_cases (h : l.line io = some l') :
  l.task = .line ∧ ((∃ line, io.lines[l.items.length]? = some line ∧
      l' = { l with task := .next, items := l.items ++ [line] }) ∨
    (io.lines.length ≤ l.items.length ∧ l' = { l with task := .ended }))
  := by
  rw [line] at h
  split at h
  · rename_i htask
    refine ⟨htask, ?_⟩
    split at h
    · rename_i line hget
      exact Or.inl ⟨line, hget, (Option.some.inj h).symm⟩
    · rename_i hget
      exact Or.inr ⟨List.getElem?_eq_none_iff.mp hget, (Option.some.inj h).symm⟩
  · cases h

end LinesState

/-- What a stream of lines does tells how many reads it has begun, when it has `n` items: one for
each item, and one more while it awaits a line, or when the lines have ended. -/
def LinesTask.Tells (io : Stdio) (n reads : ℕ) (all : Prop) : LinesTask → Prop
  | .next => reads = n
  | .line => reads = n + 1
  | .ended => reads = n ∧ all ∨ reads = n + 1 ∧ io.lines.length ≤ n
  | .unreachable => False

theorem LinesTask.Tells.imp {io : Stdio} {n reads : ℕ} {all all' : Prop} {task : LinesTask}
    (h : task.Tells io n reads all) (himp : all → all') :
  task.Tells io n reads all'
  := by
  cases task with
  | next => exact h
  | line => exact h
  | ended => exact h.imp_left fun ⟨hreads, hall⟩ => ⟨hreads, himp hall⟩
  | unreachable => exact h

namespace LinesState

variable {io : Stdio} {sink : List TerminalCommand} {sinkEnded : Bool} {l l' : LinesState}

/-- The stream has begun a read for each command to read a line that it has taken, and yielded the
first lines. -/
structure Follows (io : Stdio) (sink : List TerminalCommand) (sinkEnded : Bool) (l : LinesState) :
    Prop where
  taken_le : l.taken ≤ sink.length
  reads : l.reads = (sink.take l.taken).count .readLine
  items : l.items = io.lines.take l.items.length
  task : l.task.Tells io l.items.length l.reads (sinkEnded = true ∧ l.taken = sink.length)

theorem Follows.init (io : Stdio) :
  Follows io [] false ⟨.next, 0, 0, []⟩
  := ⟨Nat.le_refl _, rfl, rfl, rfl⟩

/-- A command that the sink yields has not been taken. -/
theorem Follows.command (h : Follows io sink false l) (command : TerminalCommand) :
  Follows io (sink ++ [command]) false l
  := by
  refine ⟨?_, ?_, h.items, ?_⟩
  · rw [List.length_append]
    apply Nat.le_add_right_of_le h.taken_le
  · rw [List.take_append_of_le_length h.taken_le]
    exact h.reads
  · apply h.task.imp
    rintro ⟨hended, -⟩
    cases hended

/-- The sink may end. -/
theorem Follows.sinkEnd (h : Follows io sink false l) :
  Follows io sink true l
  := by
  refine ⟨h.taken_le, h.reads, h.items, ?_⟩
  apply h.task.imp
  rintro ⟨hended, -⟩
  cases hended

/-- The stream takes a command, and begins a read if that is what the command is for. -/
theorem Follows.take (h : Follows io sink sinkEnded l) (htask : l.task = .next)
    {command : TerminalCommand} (hget : sink[l.taken]? = some command) :
  Follows io sink sinkEnded (l.take command)
  := by
  have htake : (sink.take (l.taken + 1)).count .readLine =
      (sink.take l.taken).count .readLine + [command].count .readLine := by
    rw [List.take_add_one, hget, List.count_append]
    rfl
  have hlt : l.taken + 1 ≤ sink.length := (List.getElem?_eq_some_iff.mp hget).1
  have htells := h.task
  rw [htask] at htells
  by_cases hcommand : command = .readLine
  · subst hcommand
    refine ⟨hlt, ?_, h.items, ?_⟩
    · change l.reads + 1 = (sink.take (l.taken + 1)).count .readLine
      rw [htake, h.reads]
      rfl
    · exact congrArg (· + 1) htells
  · have hkeeps : l.take command = { l with taken := l.taken + 1 } := by
      cases command with
      | readLine => cases hcommand rfl
      | _ => rfl
    rw [hkeeps]
    refine ⟨hlt, ?_, h.items, ?_⟩
    · rw [htake, List.count_singleton, if_neg (by simpa using hcommand)]
      exact h.reads
    · rw [htask]
      exact htells

/-- The stream takes the next command, or the end. -/
theorem Follows.next (h : Follows io sink sinkEnded l) (hl : l.next sink sinkEnded = some l') :
  Follows io sink sinkEnded l'
  := by
  obtain ⟨htask, ⟨command, hget, rfl⟩ | ⟨hle, hended, rfl⟩⟩ := next_cases hl
  · apply h.take htask hget
  · refine ⟨h.taken_le, h.reads, h.items, ?_⟩
    have htells := h.task
    rw [htask] at htells
    left
    exact ⟨htells, hended, Nat.le_antisymm h.taken_le hle⟩

/-- The stream yields the line that the reader gives, or ends with the reader. -/
theorem Follows.line (h : Follows io sink sinkEnded l) (hl : l.line io = some l') :
  Follows io sink sinkEnded l'
  := by
  obtain ⟨htask, ⟨line, hget, rfl⟩ | ⟨hle, rfl⟩⟩ := line_cases hl
  · have htells := h.task
    rw [htask] at htells
    refine ⟨h.taken_le, h.reads, ?_, ?_⟩
    · change l.items ++ [line] = io.lines.take (l.items ++ [line]).length
      rw [List.length_append, List.length_singleton, List.take_add_one, hget, ← h.items]
      rfl
    · change l.reads = (l.items ++ [line]).length
      rw [List.length_append]
      exact htells
  · refine ⟨h.taken_le, h.reads, h.items, ?_⟩
    have htells := h.task
    rw [htask] at htells
    right
    exact ⟨htells, hle⟩

/-- There are no more items than reads begun. -/
theorem Follows.length_le (h : Follows io sink sinkEnded l) :
  l.items.length ≤ l.reads
  := by
  have htells := h.task
  cases htask : l.task with
  | next =>
      rw [htask] at htells
      exact Nat.le_of_eq htells.symm
  | line =>
      rw [htask] at htells
      exact Nat.le_of_lt (Nat.lt_of_succ_le (Nat.le_of_eq htells.symm))
  | ended =>
      rw [htask] at htells
      rcases htells with ⟨hreads, -⟩ | ⟨hreads, -⟩
      · exact Nat.le_of_eq hreads.symm
      · exact Nat.le_of_lt (Nat.lt_of_succ_le (Nat.le_of_eq hreads.symm))
  | unreachable =>
      rw [htask] at htells
      cases htells

/-- There are no more reads begun than commands to read a line. -/
theorem Follows.reads_le (h : Follows io sink sinkEnded l) :
  l.reads ≤ sink.count .readLine
  := by
  rw [h.reads]
  apply (List.take_sublist _ _).count_le

/-- The items are the first ones of the interpreter. -/
theorem Follows.items_mono (h : Follows io sink sinkEnded l) :
  l.items <+: (interpret io sink).items
  := by
  rw [interpret_items, h.items]
  apply List.take_prefix_take_left
  apply Nat.le_trans h.length_le h.reads_le

/-- A stream that cannot go on has all items of the interpreter. -/
theorem Follows.of_stuck (h : Follows io sink sinkEnded l) (hnext : l.next sink sinkEnded = none)
    (hline : l.line io = none) :
  l.items = (interpret io sink).items
  := by
  have hall : l.reads = l.items.length → sink.length ≤ l.taken →
      l.items = (interpret io sink).items := by
    intro hreads hle
    have htake := h.reads
    rw [List.take_of_length_le hle, hreads] at htake
    rw [interpret_items, ← htake]
    exact h.items
  have htells := h.task
  cases htask : l.task with
  | next =>
      rw [htask] at htells
      rw [LinesState.next, if_pos htask] at hnext
      split at hnext
      · cases hnext
      · apply hall htells (List.getElem?_eq_none_iff.mp ‹_›)
  | line =>
      rw [LinesState.line, if_pos htask] at hline
      split at hline <;> cases hline
  | ended =>
      rw [htask] at htells
      rcases htells with ⟨hreads, -, htaken⟩ | ⟨hreads, hle⟩
      · apply hall hreads (Nat.le_of_eq htaken.symm)
      · have hcount := h.reads_le
        rw [interpret_items, h.items, List.take_of_length_le hle, List.take_of_length_le]
        omega
  | unreachable =>
      rw [htask] at htells
      cases htells

end LinesState

/-! ### The driver and the stream of lines -/

/-- The events of the run loop. -/
def TerminalEvent.OfRun (e : TerminalEvent) : Prop :=
  e = .runNext ∨ e = .outputDone

/-- The events of the stream of lines. -/
def TerminalEvent.OfLines (e : TerminalEvent) : Prop :=
  e = .linesNext ∨ e = .line

namespace TerminalState

variable {io : Stdio}

/-- Both do with the commands that they have taken what the interpreter does. -/
structure Follows (io : Stdio) (s : TerminalState) : Prop where
  run : s.run.Follows io s.sink s.sinkEnded
  lines : s.lines.Follows io s.sink s.sinkEnded

theorem Follows.init (io : Stdio) :
  Follows io init
  := ⟨RunState.Follows.init io, LinesState.Follows.init io⟩

theorem Follows.step {s t : TerminalState} (h : Follows io s) {e : TerminalEvent}
    (hs : (machine io).step s e = some t) :
  Follows io t
  := by
  change s.step io e = some t at hs
  obtain ⟨hrun, hlines⟩ := h
  cases e with
  | command command =>
      rw [TerminalState.step] at hs
      split at hs <;> cases hs
      rename_i hopen
      rw [Bool.not_eq_true] at hopen
      rw [hopen] at hrun hlines
      constructor
      · change s.run.Follows io (s.sink ++ [command]) s.sinkEnded
        rw [hopen]
        apply hrun.command
      · change s.lines.Follows io (s.sink ++ [command]) s.sinkEnded
        rw [hopen]
        apply hlines.command
  | sinkEnd =>
      rw [TerminalState.step] at hs
      split at hs <;> cases hs
      rename_i hopen
      rw [Bool.not_eq_true] at hopen
      rw [hopen] at hrun hlines
      exact ⟨hrun.sinkEnd, hlines.sinkEnd⟩
  | runNext =>
      obtain ⟨run, hnext, rfl⟩ := Option.map_eq_some_iff.mp hs
      exact ⟨hrun.next hnext, hlines⟩
  | outputDone =>
      obtain ⟨run, hdone, rfl⟩ := Option.map_eq_some_iff.mp hs
      exact ⟨hrun.done hdone, hlines⟩
  | linesNext =>
      obtain ⟨lines, hnext, rfl⟩ := Option.map_eq_some_iff.mp hs
      exact ⟨hrun, hlines.next hnext⟩
  | line =>
      obtain ⟨lines, hline, rfl⟩ := Option.map_eq_some_iff.mp hs
      exact ⟨hrun, hlines.line hline⟩

theorem Follows.of_run {tr : List TerminalEvent} {s : TerminalState}
    (h : (machine io).run TerminalState.init tr = some s) :
  Follows io s
  := by
  apply (machine io).run_invariant (Follows.init io) _ h
  intro s e t hs ht
  apply hs.step ht

/-- A run loop that has returned stays as it is. -/
theorem run_of_returned {s t : TerminalState} {result : Except BoxError ExitCode}
    (hloop : s.run.loop = .returned result) {tr : List TerminalEvent}
    (h : (machine io).run s tr = some t) :
  t.run = s.run
  := by
  apply (machine io).run_invariant (P := fun t => t.run = s.run) rfl _ h
  intro t e u ht hu
  change t.step io e = some u at hu
  have hstuck : t.run.next t.sink t.sinkEnded = none ∧ t.run.done io = none :=
    RunState.eq_none_of_returned (by rw [ht]; exact hloop)
  cases e with
  | command command =>
      rw [TerminalState.step] at hu
      split at hu <;> cases hu
      exact ht
  | sinkEnd =>
      rw [TerminalState.step] at hu
      split at hu <;> cases hu
      exact ht
  | runNext =>
      rw [TerminalState.step, hstuck.1] at hu
      cases hu
  | outputDone =>
      rw [TerminalState.step, hstuck.2] at hu
      cases hu
  | linesNext =>
      obtain ⟨lines, -, rfl⟩ := Option.map_eq_some_iff.mp hu
      exact ht
  | line =>
      obtain ⟨lines, -, rfl⟩ := Option.map_eq_some_iff.mp hu
      exact ht

/-- The run loop can go on by itself until it is stuck, whatever the stream of lines does. -/
theorem exists_stuck (io : Stdio) (s : TerminalState) :
  ∃ tr t, (∀ e ∈ tr, TerminalEvent.OfRun e) ∧ (machine io).run s tr = some t ∧
    (machine io).Quiescent TerminalEvent.OfRun t
  := by
  apply (machine io).exists_quiescent fun s => s.run.left s.sink
  rintro s e t (rfl | rfl) ht
  · obtain ⟨run, hnext, rfl⟩ := Option.map_eq_some_iff.mp ht
    apply RunState.left_next hnext
  · obtain ⟨run, hdone, rfl⟩ := Option.map_eq_some_iff.mp ht
    apply RunState.left_done hdone

/-- What holds in a state when the driver and the stream of lines refine the interpreter of the
commands that the sink has yielded.  The outputs begun are its first ones, and all of them once the
run loop has returned, with its result.  The items are its first ones.  A read has been begun for
each command to read a line that the stream has taken, and for each item.  Nothing unreachable has
been reached. -/
structure Refines (io : Stdio) (s : TerminalState) : Prop where
  performed : s.run.performed <+: (interpret io s.sink).outputs
  returned : ∀ result, s.run.loop = .returned result →
    s.run.performed = (interpret io s.sink).outputs ∧
      (interpret io s.sink).returns s.sinkEnded = some result
  items : s.lines.items <+: (interpret io s.sink).items
  reads : s.lines.items.length ≤ s.lines.reads ∧
    s.lines.reads = (s.sink.take s.lines.taken).count .readLine
  reachable : s.run.loop ≠ .unreachable ∧ s.lines.task ≠ .unreachable

theorem Follows.refines {s : TerminalState} (h : Follows io s) :
  Refines io s
  := by
  refine ⟨h.run.performed_mono, fun _ => h.run.returned, h.lines.items_mono,
    ⟨h.lines.length_le, h.lines.reads⟩, ?_, ?_⟩
  · intro hloop
    have htells := h.run.loop
    rw [hloop] at htells
    cases htells
  · intro htask
    have htells := h.lines.task
    rw [htask] at htells
    cases htells

/-- A run loop that cannot go on has done all that the interpreter does. -/
theorem Follows.performed_of_quiescent {s : TerminalState} (h : Follows io s)
    (hq : (machine io).Quiescent TerminalEvent.OfRun s) :
  s.run.performed = (interpret io s.sink).outputs ∧
    ∀ result, s.run.loop = .returned result ↔
      (interpret io s.sink).returns s.sinkEnded = some result
  := by
  apply h.run.of_stuck
  · apply Option.map_eq_none_iff.mp (hq .runNext (Or.inl rfl))
  · apply Option.map_eq_none_iff.mp (hq .outputDone (Or.inr rfl))

/-- A stream of lines that cannot go on has all items that the interpreter has. -/
theorem Follows.items_of_quiescent {s : TerminalState} (h : Follows io s)
    (hq : (machine io).Quiescent TerminalEvent.OfLines s) :
  s.lines.items = (interpret io s.sink).items
  := by
  apply h.lines.of_stuck
  · apply Option.map_eq_none_iff.mp (hq .linesNext (Or.inl rfl))
  · apply Option.map_eq_none_iff.mp (hq .line (Or.inr rfl))

/-- The driver, with a stream of lines beside it, refines an interpreter of its commands, in every
state of every run.  Once the run loop has returned nothing more is written.  When it cannot go on,
it has done all outputs of the interpreter, and has returned exactly when the interpreter has a
result; that is so after some steps of its own.  When the stream of lines cannot go on, it has all
items of the interpreter. -/
theorem refines_interpret (io : Stdio) {tr : List TerminalEvent} {s : TerminalState}
    (h : (machine io).run init tr = some s) :
  Interprets io s.sink (interpret io s.sink) ∧ Refines io s ∧
    (∀ result, s.run.loop = .returned result →
      ∀ tr' t, (machine io).run s tr' = some t → t.run = s.run) ∧
    ((machine io).Quiescent TerminalEvent.OfRun s →
      s.run.performed = (interpret io s.sink).outputs ∧
        ∀ result, s.run.loop = .returned result ↔
          (interpret io s.sink).returns s.sinkEnded = some result) ∧
    (∃ tr' t, (∀ e ∈ tr', TerminalEvent.OfRun e) ∧ (machine io).run s tr' = some t ∧
      (machine io).Quiescent TerminalEvent.OfRun t) ∧
    ((machine io).Quiescent TerminalEvent.OfLines s →
      s.lines.items = (interpret io s.sink).items)
  := by
  have hfollows : Follows io s := Follows.of_run h
  exact ⟨interprets io s.sink, hfollows.refines,
    fun _ hloop _ _ hr => run_of_returned hloop hr, hfollows.performed_of_quiescent,
    exists_stuck io s, hfollows.items_of_quiescent⟩

/-- A run in which a line is read between a write and the command to exit. -/
theorem refines_interpret_exit :
  ∃ s, (machine ⟨fun _ => .ok (), [.ok "x"]⟩).run init
      [.command (.write "a"), .command .readLine, .runNext, .linesNext, .command (.exit 2),
        .linesNext, .outputDone, .runNext, .line, .runNext, .command (.write "b")] = some s ∧
    s.run.performed = (interpret ⟨fun _ => .ok (), [.ok "x"]⟩ s.sink).outputs ∧
    s.run.performed = [.write "a"] ∧ s.run.loop = .returned (.ok 2) ∧ s.lines.items = [.ok "x"]
  := by
  refine ⟨_, rfl, ?_, rfl, rfl, rfl⟩
  have hrefines := @refines_interpret ⟨fun _ => .ok (), [.ok "x"]⟩
    [.command (.write "a"), .command .readLine, .runNext, .linesNext, .command (.exit 2),
      .linesNext, .outputDone, .runNext, .line, .runNext, .command (.write "b")] _ rfl
  exact (hrefines.2.1.returned (.ok 2) rfl).1

end TerminalState

end Terminal

end Cyclers
