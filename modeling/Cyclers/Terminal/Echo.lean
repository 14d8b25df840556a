import Cyclers.Terminal.Application

/-!
# The echo application

The application echoes the lines that it reads.  The sink stream of its `main` begins with a command
to read a line, and goes on with the echo of each line, zipped with the command to read the next
one.  So it goes round the circle once for each line: a line is read only after the command to do so
has come to the driver, and that command is sent only after the line before it.

It echoes the lines in order, up to the first one that cannot be read, it never gets stuck, and it
ends.
-/

open Async

namespace Cyclers

namespace Terminal

/-- The echo of a line, or the error of reading it. -/
def echo : Line → Except BoxError TerminalCommand
  | .ok input => .ok (.write (input ++ "\n"))
  | .error _ => .error "failed to read line from terminal"

/-- The sink stream of the echo application: whether the stream of the first command is still to
yield, what is left of the last echo and the command zipped with it, and whether the lines have
ended. -/
structure EchoSink where
  once : Bool
  iter : List (Except BoxError TerminalCommand)
  ended : Bool
  deriving DecidableEq

namespace EchoSink

/-- What the sink stream yields before it awaits a line. -/
def poll : EchoSink → Option (Option (Except BoxError TerminalCommand) × EchoSink)
  | ⟨true, iter, ended⟩ => some (some (.ok .readLine), ⟨false, iter, ended⟩)
  | ⟨false, item :: iter, ended⟩ => some (some item, ⟨false, iter, ended⟩)
  | ⟨false, [], true⟩ => some (none, ⟨false, [], true⟩)
  | ⟨false, [], false⟩ => none

/-- The sink stream takes a line, or the end of the lines. -/
def line (s : EchoSink) : Option Line → EchoSink
  | some line => { s with iter := [echo line, .ok .readLine] }
  | none => { s with ended := true }

/-- The `main` of the echo application. -/
def main : Main EchoSink where
  start := ⟨true, [], false⟩
  poll := poll
  line := line

/-- How the sink stream yields. -/
theorem poll_cases {s s' : EchoSink} {item : Option (Except BoxError TerminalCommand)}
    (h : s.poll = some (item, s')) :
  (s.once = true ∧ item = some (.ok .readLine) ∧ s' = { s with once := false }) ∨
    (∃ x iter, s = ⟨false, x :: iter, s.ended⟩ ∧ item = some x ∧ s' = ⟨false, iter, s.ended⟩) ∨
    (s = ⟨false, [], true⟩ ∧ item = none ∧ s' = s)
  := by
  obtain ⟨once, iter, ended⟩ := s
  cases once with
  | true =>
      cases h
      exact Or.inl ⟨rfl, rfl, rfl⟩
  | false =>
      cases iter with
      | cons x iter =>
          cases h
          exact Or.inr (Or.inl ⟨x, iter, rfl, rfl, rfl⟩)
      | nil =>
          cases ended with
          | true =>
              cases h
              exact Or.inr (Or.inr ⟨rfl, rfl, rfl⟩)
          | false => cases h

/-- The sink stream awaits a line when it has nothing else to yield. -/
theorem poll_eq_none {s : EchoSink} :
  s.poll = none ↔ s = ⟨false, [], false⟩
  := by
  obtain ⟨once, iter, ended⟩ := s
  rcases once <;> rcases iter <;> rcases ended <;> simp [poll]

end EchoSink

/-! ### What is echoed -/

/-- The lines up to the first one that cannot be read. -/
def texts : List Line → List String
  | [] => []
  | .ok text :: lines => text :: texts lines
  | .error _ :: _ => []

/-- The items that the sink stream yields for some lines. -/
def script (lines : List Line) : List (Except BoxError TerminalCommand) :=
  .ok .readLine :: lines.flatMap fun line => [echo line, .ok .readLine]

/-- The commands to echo some texts, each followed by one to read a line. -/
def echoes (texts : List String) : List TerminalCommand :=
  texts.flatMap fun text => [.write (text ++ "\n"), .readLine]

theorem script_concat (lines : List Line) (line : Line) :
  script (lines ++ [line]) = script lines ++ [echo line, .ok .readLine]
  := by
  rw [script, script, List.flatMap_append, List.flatMap_singleton, List.cons_append]

theorem script_mono {lines lines' : List Line} (h : lines <+: lines') :
  script lines <+: script lines'
  := by
  obtain ⟨rest, rfl⟩ := h
  rw [script, script, List.flatMap_append]
  exact List.prefix_append (Except.ok TerminalCommand.readLine :: _) _

/-- The commands that the sink stream yields before its first error echo the first lines. -/
theorem commands_echo_mono {lines : List Line} {items : List (Except BoxError TerminalCommand)}
    (hmono : items <+: lines.flatMap fun line => [echo line, .ok .readLine])
    (hlast : ∀ err, .error err ∉ items.dropLast) :
  commands items <+: echoes (texts lines)
  := by
  induction lines generalizing items with
  | nil =>
      obtain rfl := List.prefix_nil.mp hmono
      exact List.nil_prefix
  | cons line lines ih =>
      rw [List.flatMap_cons, List.cons_append, List.cons_append, List.nil_append] at hmono
      rcases items with _ | ⟨x, items⟩
      · exact List.nil_prefix
      · obtain ⟨rfl, hread⟩ := List.cons_prefix_cons.mp hmono
        rcases items with _ | ⟨y, items⟩
        · cases line with
          | ok text => exact List.prefix_append [TerminalCommand.write (text ++ "\n")] _
          | error err => exact List.nil_prefix
        · obtain ⟨rfl, hrest⟩ := List.cons_prefix_cons.mp hread
          cases line with
          | ok text =>
              have hechoes : commands items <+: echoes (texts lines) := by
                apply ih hrest
                intro err herr
                apply hlast err
                rcases items with _ | ⟨z, items⟩
                · cases herr
                · apply List.mem_cons_of_mem _ (List.mem_cons_of_mem _ herr)
              have hcommands : commands (.ok (.write (text ++ "\n")) :: .ok .readLine :: items) =
                [.write (text ++ "\n"), .readLine] ++ commands items := rfl
              rw [echo, hcommands, texts, echoes, List.flatMap_cons]
              apply (List.prefix_append_right_inj _).mpr hechoes
          | error err => exact absurd List.mem_cons_self (hlast _)

/-- When the script for some lines has no error all of them have been read, and all are echoed. -/
theorem script_ok {lines : List Line} (h : ∀ err, .error err ∉ script lines) :
  lines = (texts lines).map .ok ∧ commands (script lines) = .readLine :: echoes (texts lines)
  := by
  induction lines with
  | nil => exact ⟨rfl, rfl⟩
  | cons line lines ih =>
      cases line with
      | error err =>
          cases h "failed to read line from terminal"
            (List.mem_cons_of_mem _ (List.mem_cons_self))
      | ok text =>
          have hrest : ∀ err, .error err ∉ script lines := by
            intro err herr
            apply h err (List.mem_cons_of_mem _ (List.mem_cons_of_mem _ _))
            exact herr
          obtain ⟨hlines, hcommands⟩ := ih hrest
          constructor
          · exact congrArg (Except.ok text :: ·) hlines
          · exact congrArg (TerminalCommand.readLine :: .write (text ++ "\n") :: ·) hcommands

/-- More commands only add to the outputs before the first command to exit. -/
theorem outputsBefore_mono {commands all : List TerminalCommand} (h : commands <+: all) :
  outputsBefore commands <+: outputsBefore all
  := by
  obtain ⟨rest, rfl⟩ := h
  induction commands with
  | nil => exact List.nil_prefix
  | cons command commands ih =>
      cases command with
      | write out => exact List.cons_prefix_cons.mpr ⟨rfl, ih⟩
      | readLine => exact ih
      | flush => exact List.cons_prefix_cons.mpr ⟨rfl, ih⟩
      | exit exitCode => exact List.nil_prefix

/-- The outputs of the commands to echo some texts. -/
theorem outputsBefore_echoes (texts : List String) :
  outputsBefore (.readLine :: echoes texts) = texts.map fun text => .write (text ++ "\n")
  := by
  induction texts with
  | nil => rfl
  | cons text texts ih => exact congrArg (_ :: ·) ih

/-- The commands to echo some texts do not exit. -/
theorem exit_not_mem_echoes (texts : List String) (exitCode : ExitCode) :
  .exit exitCode ∉ .readLine :: echoes texts
  := by simp [echoes]

/-- What an interpreter tells that had done the outputs `done` before some commands: it has done the
first of the outputs before the first command to exit, and all of them without a result; a status
code is that of a command to exit, and an error is that of the last output. -/
structure Interpreter.Tells (io : Stdio) (done : List Output) (commands : List TerminalCommand)
    (i : Interpreter) : Prop where
  outputs : i.outputs <+: done ++ outputsBefore commands
  none : i.result = none → i.outputs = done ++ outputsBefore commands
  ok : ∀ exitCode, i.result = some (.ok exitCode) → .exit exitCode ∈ commands
  error : ∀ err, i.result = some (.error err) → io.output i.outputs = .error err

theorem Interpreter.Tells.cons {io : Stdio} {done done' : List Output} {command : TerminalCommand}
    {commands : List TerminalCommand} {i : Interpreter} (h : i.Tells io done' commands)
    (houtputs : done' ++ outputsBefore commands = done ++ outputsBefore (command :: commands)) :
  i.Tells io done (command :: commands)
  := by
  refine ⟨houtputs ▸ h.outputs, houtputs ▸ h.none, ?_, h.error⟩
  intro exitCode hresult
  apply List.mem_cons_of_mem _ (h.ok exitCode hresult)

/-- What an interpreter without a result tells after some commands. -/
theorem Interpreter.run_tells {io : Stdio} {i : Interpreter} (h : i.result = .none)
    (commands : List TerminalCommand) :
  (i.run io commands).Tells io i.outputs commands
  := by
  induction commands generalizing i with
  | nil =>
      refine ⟨List.prefix_append _ _, fun _ => (List.append_nil _).symm, ?_, ?_⟩
      · intro exitCode hresult
        cases h.symm.trans hresult
      · intro err hresult
        cases h.symm.trans hresult
  | cons command commands ih =>
      have houtput : ∀ op, outputsBefore (command :: commands) = op :: outputsBefore commands →
          ((i.output io op).run io commands).Tells io i.outputs (command :: commands) := by
        intro op hop
        rw [output_of_none h, Stdio.failure]
        cases hio : io.output (i.outputs ++ [op]) with
        | ok u =>
            apply (ih rfl).cons
            rw [hop, List.append_assoc]
            rfl
        | error err =>
            obtain ⟨houtputs, hresult⟩ := @run_of_result io
              ⟨i.outputs ++ [op], some (.error err), i.items⟩ _ rfl commands
            refine ⟨?_, ?_, ?_, ?_⟩
            · rw [houtputs, hop]
              apply (List.prefix_append_right_inj _).mpr (List.prefix_append [op] _)
            · intro hnone
              cases hresult.symm.trans hnone
            · intro exitCode hok
              cases hresult.symm.trans hok
            · intro err' herr
              cases hresult.symm.trans herr
              rw [houtputs]
              exact hio
      cases command with
      | write out => apply houtput (.write out) rfl
      | readLine => exact (ih (i := i.handle io .readLine) h).cons rfl
      | flush => apply houtput .flush rfl
      | exit exitCode =>
          have hexit : (i.handle io (.exit exitCode)).result = some (.ok exitCode) := by
            rw [handle, h]
            rfl
          obtain ⟨houtputs, hresult⟩ := run_of_result hexit commands
          rw [run_cons]
          refine ⟨?_, ?_, ?_, ?_⟩
          · rw [houtputs]
            exact List.prefix_append _ _
          · intro hnone
            cases hresult.symm.trans hnone
          · intro exitCode' hok
            cases hresult.symm.trans hok
            exact List.mem_cons_self
          · intro err herr
            cases hresult.symm.trans herr

/-! ### The circle -/

namespace EchoSink

variable {io : Stdio} {s t : Application EchoSink}

/-- The invariant of the echo application, when its sink stream has yielded `items`.  What it has
yielded and is to yield is its script for the lines that it has got.  It has ended with the lines,
and the loop over it with it.  The receiver is dropped only once the run loop has returned.  An
error that it yields is its last item, and the error that the proxy future fails with. -/
structure Inv (io : Stdio) (items : List (Except BoxError TerminalCommand))
    (s : Application EchoSink) : Prop where
  first : s.main.once = true → items = [] ∧ s.main.iter = [] ∧ s.terminal.lines.items = []
  yields : s.main.once = false → items ++ s.main.iter = script s.terminal.lines.items
  ended : s.main.ended = true ↔ s.terminal.lines.task = .ended
  lines : s.main.ended = true → io.lines.length ≤ s.terminal.lines.items.length
  finished : (s.run.lanes 0).proxy = .ended → s.main = ⟨false, [], true⟩
  alive : (s.run.lanes 0).channel.receiver = false → ∃ result, s.terminal.run.loop = .returned result
  failed : ∀ err, .error err ∈ items → s.run.proxy = .ret (.error err)
  last : ∀ err, .error err ∉ items.dropLast

theorem Inv.init (io : Stdio) :
  Inv io [] main.setup
  := by
  refine ⟨fun _ => ⟨rfl, rfl, rfl⟩, ?_, ?_, ?_, ?_, ?_, ?_, ?_⟩
  · intro h
    cases h
  · constructor
    · intro h
      cases h
    · intro h
      cases h
  · intro h
    cases h
  · intro h
    cases h
  · intro h
    cases h
  · intro err h
    cases h
  · intro err h
    cases h

/-- While there is no outcome the sink stream has yielded no error. -/
theorem Inv.no_error {items : List (Except BoxError TerminalCommand)} (h : Inv io items s)
    (ho : s.run.outcome = none) (err : BoxError) :
  .error err ∉ items
  := by
  intro herr
  have hfailed := (Cyclers.RunState.failed_of_outcome ho).2
  rw [h.failed err herr] at hfailed
  cases hfailed

/-- An event of the lane that neither pulls from the sink stream nor ends the loop over it. -/
theorem Inv.lane {items : List (Except BoxError TerminalCommand)} (h : Inv io items s)
    (ho : s.run.outcome = none) {run : RunFuture} {terminal : TerminalState}
    (hlines : terminal.lines = s.terminal.lines)
    (hended : (run.lanes 0).proxy = .ended → (s.run.lanes 0).proxy = .ended)
    (halive : (run.lanes 0).channel.receiver = false →
      ∃ result, terminal.run.loop = .returned result) :
  Inv io items ⟨run, terminal, s.main⟩
  := by
  refine ⟨?_, ?_, ?_, ?_, fun hproxy => h.finished (hended hproxy), halive, ?_, h.last⟩
  · rw [hlines]
    exact h.first
  · rw [hlines]
    exact h.yields
  · rw [hlines]
    exact h.ended
  · rw [hlines]
    exact h.lines
  · intro err herr
    exact absurd herr (h.no_error ho err)

/-- The sink stream yields an item, or ends. -/
theorem Inv.sink {items : List (Except BoxError TerminalCommand)} (h : Inv io items s)
    (ho : s.run.outcome = none) {item : Option (Except BoxError TerminalCommand)} {main : EchoSink}
    {run : RunFuture} (hpoll : s.main.poll = some (item, main))
    (hrun : s.run.step (.lane 0 (.sink item)) = some run) :
  Inv io (items ++ item.toList) ⟨run, s.terminal, main⟩
  := by
  obtain ⟨p, hlane, -, hproxy⟩ := RunFuture.lane_cases hrun
  have hreceiver : (run.lanes 0).channel.receiver = (s.run.lanes 0).channel.receiver := by
    generalize run.lanes 0 = l at hlane ⊢
    cases hlane <;> rfl
  have hgoing : (run.lanes 0).proxy = .ended → item = none := by
    intro hended
    generalize run.lanes 0 = l at hlane hended
    cases hlane with
    | pull x _ => cases hended
    | fail err hnext => cases hnext.symm.trans hended
    | finish _ => rfl
  have hfails : ∀ err, item = some (.error err) → run.proxy = .ret (.error err) := by
    rintro err rfl
    generalize run.lanes 0 = l at hlane
    cases hlane
    exact hproxy
  have hfailed : ∀ err, .error err ∈ items ++ item.toList → run.proxy = .ret (.error err) := by
    intro err herr
    rcases List.mem_append.mp herr with hold | hnew
    · exact absurd hold (h.no_error ho err)
    · apply hfails err (Option.mem_toList.mp hnew)
  have hlast : ∀ err, .error err ∉ (items ++ item.toList).dropLast := by
    intro err herr
    apply h.no_error ho err
    cases item with
    | none =>
        rw [Option.toList_none, List.append_nil] at herr
        apply List.dropLast_subset _ herr
    | some x =>
        rw [Option.toList_some, List.dropLast_concat] at herr
        exact herr
  have halive : (run.lanes 0).channel.receiver = false →
      ∃ result, s.terminal.run.loop = .returned result := by
    rw [hreceiver]
    exact h.alive
  rcases poll_cases hpoll with ⟨honce, rfl, rfl⟩ | ⟨x, iter, hmain, rfl, rfl⟩ | ⟨hmain, rfl, rfl⟩
  · obtain ⟨rfl, hiter, hitems⟩ := h.first honce
    refine ⟨?_, ?_, h.ended, h.lines, ?_, halive, hfailed, hlast⟩
    · intro hfalse
      cases hfalse
    · intro _
      change [Except.ok TerminalCommand.readLine] ++ s.main.iter = _
      rw [hiter, hitems]
      rfl
    · intro hended
      cases hgoing hended
  · have honce : s.main.once = false := by rw [hmain]
    refine ⟨?_, ?_, h.ended, h.lines, ?_, halive, hfailed, hlast⟩
    · intro hfalse
      cases hfalse
    · intro _
      rw [← h.yields honce, hmain]
      exact List.append_assoc items [x] iter
    · intro hended
      cases hgoing hended
  · rw [Option.toList_none, List.append_nil] at hfailed hlast ⊢
    exact ⟨h.first, h.yields, h.ended, h.lines, fun _ => hmain, halive, hfailed, hlast⟩

/-- What is polled awaits a line: the loop over the sink stream awaits its next item, and the sink
stream has nothing else to yield. -/
theorem of_polls (h : main.polls s = true) :
  (s.run.lanes 0).proxy = .next ∧ s.main = ⟨false, [], false⟩
  := by
  obtain ⟨hproxy, hpoll⟩ := of_decide_eq_true h
  exact ⟨hproxy, poll_eq_none.mp (Option.isNone_iff_eq_none.mp hpoll)⟩

/-- The stream of lines goes on. -/
theorem Inv.takeLine {items : List (Except BoxError TerminalCommand)} (h : Inv io items s)
    (hopen : s.terminal.sinkEnded = false) (hpolls : main.polls s = true) {e : TerminalEvent}
    {terminal : TerminalState} (he : e.OfLines) (hterminal : s.terminal.step io e = some terminal) :
  Inv io items (main.takeLine s terminal)
  := by
  obtain ⟨hproxy, hmain⟩ := of_polls hpolls
  have hnot : (s.run.lanes 0).proxy = .ended → False := by
    intro hended
    cases hproxy.symm.trans hended
  have hscript : items = script s.terminal.lines.items := by
    rw [← h.yields (by rw [hmain]), hmain, List.append_nil]
  rcases Main.takeLine_cases he hterminal main with ⟨command, htask, -, htake⟩ |
    ⟨line, -, -, htake⟩ | ⟨hend, htake⟩
  · have hitems : (s.terminal.lines.take command).items = s.terminal.lines.items := by
      cases command <;> rfl
    rw [htake, hmain]
    refine ⟨?_, ?_, ?_, ?_, fun hended => (hnot hended).elim, h.alive, h.failed, h.last⟩
    · intro honce
      cases honce
    · intro _
      change items ++ [] = script (s.terminal.lines.take command).items
      rw [hitems, List.append_nil]
      exact hscript
    · apply iff_of_false Bool.false_ne_true
      intro hended
      cases command with
      | readLine => cases hended
      | _ => cases htask.symm.trans hended
    · intro hended
      cases hended
  · rw [htake, hmain]
    refine ⟨?_, ?_, ?_, ?_, fun hended => (hnot hended).elim, h.alive, h.failed, h.last⟩
    · intro honce
      cases honce
    · intro _
      change items ++ [echo line, .ok .readLine] = script (s.terminal.lines.items ++ [line])
      rw [script_concat, hscript]
    · apply iff_of_false Bool.false_ne_true
      intro hended
      cases hended
    · intro hended
      cases hended
  · rw [htake, hmain]
    refine ⟨?_, ?_, iff_of_true rfl rfl, ?_, fun hended => (hnot hended).elim, h.alive, h.failed,
      h.last⟩
    · intro honce
      cases honce
    · intro _
      change items ++ [] = script s.terminal.lines.items
      rw [List.append_nil]
      exact hscript
    · intro _
      rcases hend with ⟨-, hended⟩ | ⟨-, hle⟩
      · rw [hopen] at hended
        cases hended
      · exact hle

/-- The sink of the driver ends only after the loop over the sink stream. -/
theorem proxy_of_sinkEnded {tr : List ApplicationEvent}
    (h : (main.machine io).run main.setup tr = some s) (hended : s.terminal.sinkEnded = true) :
  (s.run.lanes 0).proxy = .ended
  := by
  obtain ⟨tr', -, hlane, -⟩ := Main.exists_inv h
  apply (hlane.eos ((Main.Tied.of_run h).eos.trans hended)).2.1

/-- The commands that the sink stream has yielded are the first ones that echo lines. -/
theorem Inv.commands_mono {tr : List ApplicationEvent} (h : Inv io (yielded tr) s)
    (hr : (main.machine io).run main.setup tr = some s) :
  commands (yielded tr) <+: .readLine :: echoes (texts io.lines)
  := by
  have hmono : yielded tr <+: script io.lines := by
    cases honce : s.main.once with
    | true =>
        rw [(h.first honce).1]
        exact List.nil_prefix
    | false =>
        have hlines : s.terminal.lines.items <+: io.lines := by
          rw [(Main.follows_of_run hr).lines.items]
          apply List.take_prefix
        apply List.IsPrefix.trans ⟨_, h.yields honce⟩ (script_mono hlines)
  have hlast := h.last
  generalize yielded tr = items at hmono hlast
  rcases items with _ | ⟨x, items⟩
  · exact List.nil_prefix
  · obtain ⟨rfl, hrest⟩ := List.cons_prefix_cons.mp hmono
    apply List.cons_prefix_cons.mpr ⟨rfl, commands_echo_mono hrest _⟩
    intro err herr
    apply hlast err
    rcases items with _ | ⟨y, items⟩
    · cases herr
    · apply List.mem_cons_of_mem _ herr

/-- A run loop that has returned a status code has returned success, after the sink has ended. -/
theorem Inv.returned_ok {tr : List ApplicationEvent} (h : Inv io (yielded tr) s)
    (hr : (main.machine io).run main.setup tr = some s) {exitCode : ExitCode}
    (hloop : s.terminal.run.loop = .returned (.ok exitCode)) :
  exitCode = exitSuccess ∧ s.terminal.sinkEnded = true ∧
    s.terminal.run.performed = outputsBefore s.terminal.sink
  := by
  have hfollows := (Main.follows_of_run hr).run
  have htells := hfollows.loop
  rw [hloop] at htells
  have hinterpret := @Interpreter.run_tells io Interpreter.new rfl
    (s.terminal.sink.take s.terminal.run.taken)
  rcases htells with hresult | ⟨hnone, hok, hended, htaken⟩
  · have hexit := hinterpret.ok exitCode hresult
    have hmono := (Main.sink_mono hr).1.trans (h.commands_mono hr)
    cases exit_not_mem_echoes _ _ (hmono.subset (List.mem_of_mem_take hexit))
  · cases hok
    refine ⟨rfl, hended, ?_⟩
    have houtputs := hinterpret.none hnone
    rw [htaken, List.take_length] at houtputs
    rw [hfollows.performed, htaken, List.take_length]
    exact houtputs

/-- The loop over the sink stream ends with it, and so not because the receiver has been dropped. -/
theorem Inv.receiver {tr : List ApplicationEvent} (h : Inv io (yielded tr) s)
    (hr : (main.machine io).run main.setup tr = some s) (ho : s.run.outcome = none)
    (hproxy : (s.run.lanes 0).proxy ≠ .ended) :
  (s.run.lanes 0).channel.receiver = true
  := by
  cases hreceiver : (s.run.lanes 0).channel.receiver with
  | true => rfl
  | false =>
      obtain ⟨result, hloop⟩ := h.alive hreceiver
      have haggregate : s.run.aggregate = .ret result := by
        rw [(Main.Tied.of_run hr).aggregate, hloop]
        rfl
      cases result with
      | ok exitCode =>
          cases hproxy (proxy_of_sinkEnded hr (h.returned_ok hr hloop).2.1)
      | error err =>
          have hfailed := (Cyclers.RunState.failed_of_outcome ho).1
          rw [haggregate] at hfailed
          cases hfailed

/-- A poll of the receiver leaves the loop over the sink stream as it is; the receiver is alive. -/
theorem recv_keeps {run run' : RunFuture} (hrun : run.step (.lane 0 .recv) = some run') :
  (run'.lanes 0).proxy = (run.lanes 0).proxy ∧ (run'.lanes 0).channel.receiver = true
  := by
  obtain ⟨p, hlane, -, -⟩ := RunFuture.lane_cases hrun
  generalize run'.lanes 0 = l at hlane ⊢
  cases hlane with
  | recv x c hreceiver hc => exact ⟨rfl, (Mpsc.recv_eq_some.mp hc).2.2.trans hreceiver⟩
  | eos hreceiver _ => exact ⟨rfl, hreceiver⟩

/-- An event of the application keeps its invariant. -/
theorem Inv.step {tr : List ApplicationEvent} {shown : List (Except BoxError TerminalCommand)}
    (h : Inv io (yielded tr) s) (hr : (main.machine io).run main.setup tr = some s)
    (ho : s.run.outcome = none) (hgoes : Main.Goes main io s shown t) :
  Inv io (yielded tr ++ shown) t
  := by
  cases hgoes with
  | sink item main run hpoll hrun => apply h.sink ho hpoll hrun
  | reserve run hrun =>
      obtain ⟨p, hlane, -, -⟩ := RunFuture.lane_cases hrun
      rw [List.append_nil]
      generalize hl : run.lanes 0 = l at hlane
      cases hlane with
      | send x c hnext hc =>
          apply h.lane ho rfl
          · rw [hl]
            intro hended
            cases hended
          · rw [hl, (Mpsc.reserve_eq_some.mp hc).2.2.2.2]
            intro hfalse
            cases hfalse
      | disconnect x hnext hreceiver =>
          have halive := h.receiver hr ho (by rw [hnext]; intro hended; cases hended)
          cases hreceiver.symm.trans halive
  | recv command c run terminal hrecv hrun hterminal =>
      obtain ⟨-, rfl⟩ := TerminalState.step_command hterminal
      obtain ⟨hproxy, hreceiver⟩ := recv_keeps hrun
      rw [List.append_nil]
      refine h.lane ho rfl ?_ ?_
      · rw [hproxy]
        exact id
      · rw [hreceiver]
        intro hfalse
        cases hfalse
  | eos run terminal hrecv hrun hterminal =>
      obtain ⟨-, rfl⟩ := TerminalState.step_sinkEnd hterminal
      obtain ⟨hproxy, hreceiver⟩ := recv_keeps hrun
      rw [List.append_nil]
      refine h.lane ho rfl ?_ ?_
      · rw [hproxy]
        exact id
      · rw [hreceiver]
        intro hfalse
        cases hfalse
  | drop result run hloop hrun =>
      obtain ⟨p, hlane, -, -⟩ := RunFuture.lane_cases hrun
      rw [List.append_nil]
      apply h.lane ho rfl
      · generalize run.lanes 0 = l at hlane ⊢
        cases hlane
        exact id
      · intro _
        exact ⟨result, hloop⟩
  | turn e terminal he hterminal hloop =>
      obtain ⟨-, -, hlines, hold⟩ := TerminalState.step_run he hterminal
      rw [List.append_nil]
      apply h.lane ho hlines id
      intro hreceiver
      obtain ⟨result, hreturned⟩ := h.alive hreceiver
      rw [hreturned] at hold
      cases hold
  | exit e terminal result run he hterminal hloop hrun =>
      obtain ⟨-, -, hlines, -⟩ := TerminalState.step_run he hterminal
      obtain ⟨hlanes, -, -⟩ := RunFuture.driver_cases hrun
      rw [List.append_nil]
      apply h.lane ho hlines
      · rw [hlanes]
        exact id
      · intro _
        exact ⟨result, hloop⟩
  | lines e terminal he hpolls hterminal =>
      rw [List.append_nil]
      refine h.takeLine ?_ hpolls he hterminal
      cases hended : s.terminal.sinkEnded with
      | false => rfl
      | true =>
          have hproxy := proxy_of_sinkEnded hr hended
          cases (of_polls hpolls).1.symm.trans hproxy

/-- The invariant holds of every state that the application reaches. -/
theorem Inv.of_run {tr : List ApplicationEvent}
    (h : (main.machine io).run main.setup tr = some s) :
  Inv io (yielded tr) s
  := by
  apply (main.machine io).run_induction (P := fun tr s => Inv io (yielded tr) s) (Inv.init io) _ tr
    s h
  intro tr s e t hr hs ht
  obtain ⟨ho, hgoes⟩ := Main.goes_of_step ht
  rw [yielded, List.flatMap_append, List.flatMap_singleton]
  apply hs.step hr ho hgoes

/-! ### What is echoed in a run -/

/-- What holds in a state when the application echoes the lines.  The driver has received the first
commands to echo texts, up to the first line that cannot be read, and written the first echoes.  At
most one read has been begun without a line.  When `run` gives a termination value, it is success,
all lines have been read, and all have been echoed.  When it fails, a line could not be read or the
last output failed. -/
structure Echoes (io : Stdio) (s : Application EchoSink) : Prop where
  sink : s.terminal.sink <+: .readLine :: echoes (texts io.lines)
  performed : s.terminal.run.performed <+: (texts io.lines).map fun text => .write (text ++ "\n")
  items : s.terminal.lines.items <+: io.lines
  reads : s.terminal.lines.reads ≤ s.terminal.lines.items.length + 1
  ok : ∀ v, s.run.outcome = some (.ok v) → v = exitSuccess ∧ io.lines = (texts io.lines).map .ok ∧
    s.terminal.run.performed = (texts io.lines).map fun text => .write (text ++ "\n")
  err : ∀ err, s.run.outcome = some (.err err) →
    (∃ e, .error e ∈ io.lines ∧ err = "failed to read line from terminal") ∨
      io.output s.terminal.run.performed = .error err
  panicked : s.run.outcome ≠ some .panicked

/-- When `run` gives a termination value, the sink stream has yielded its script for all lines. -/
theorem Inv.yielded_of_ok {tr : List ApplicationEvent} (h : Inv io (yielded tr) s)
    (hr : (main.machine io).run main.setup tr = some s) (hp : s.run.proxy = .ret (.ok ())) :
  yielded tr = script io.lines ∧ ∀ err, .error err ∉ yielded tr
  := by
  obtain ⟨tr', hrun, -, -⟩ := Main.exists_inv hr
  have hmain := h.finished (hrun.proxied hp 0)
  have hitems := (Main.follows_of_run hr).lines.items
  rw [List.take_of_length_le (h.lines (by rw [hmain]))] at hitems
  have hyields := h.yields (by rw [hmain])
  rw [hmain, List.append_nil, hitems] at hyields
  refine ⟨hyields, ?_⟩
  intro err herr
  have hfailed := h.failed err herr
  rw [hp] at hfailed
  cases hfailed

/-- An error that the sink stream yields is that of a line that could not be read. -/
theorem error_mem_script {lines : List Line} {err : BoxError} (h : .error err ∈ script lines) :
  ∃ e, .error e ∈ lines ∧ err = "failed to read line from terminal"
  := by
  rcases List.mem_cons.mp h with hfirst | hrest
  · cases hfirst
  · obtain ⟨line, hline, hmem⟩ := List.mem_flatMap.mp hrest
    cases line with
    | ok text => simp [echo] at hmem
    | error e =>
        use e, hline
        simpa [echo] using hmem

/-- The application echoes the lines that it reads, in every state of every run. -/
theorem echoes_of_run {tr : List ApplicationEvent}
    (h : (main.machine io).run main.setup tr = some s) :
  Echoes io s
  := by
  have hinv := Inv.of_run h
  obtain ⟨tr', hrun, -, -⟩ := Main.exists_inv h
  have htied := Main.Tied.of_run h
  have hfollows := Main.follows_of_run h
  have hsink := (Main.sink_mono h).1.trans (hinv.commands_mono h)
  refine ⟨hsink, ?_, ?_, ?_, ?_, ?_, hrun.outcome_ne⟩
  · have hbefore := outputsBefore_mono hsink
    rw [outputsBefore_echoes] at hbefore
    have htells := @Interpreter.run_tells io Interpreter.new rfl s.terminal.sink
    apply hfollows.run.performed_mono.trans (htells.outputs.trans hbefore)
  · rw [hfollows.lines.items]
    apply List.take_prefix
  · have htells := hfollows.lines.task
    cases htask : s.terminal.lines.task with
    | next | line =>
        rw [htask, LinesTask.Tells] at htells
        omega
    | ended =>
        rw [htask, LinesTask.Tells] at htells
        omega
    | unreachable =>
        rw [htask] at htells
        cases htells
  · intro v hv
    obtain ⟨ha, hp⟩ := Main.outcome_cases hv
    obtain ⟨hyielded, herror⟩ := hinv.yielded_of_ok h hp
    rw [hyielded] at herror
    obtain ⟨hlines, hcommands⟩ := script_ok herror
    obtain ⟨hok, hended, hperformed⟩ := hinv.returned_ok h (htied.returned ha)
    refine ⟨hok, hlines, ?_⟩
    rw [hperformed, (Main.sink_mono h).2 hended, hyielded, hcommands, outputsBefore_echoes]
  · intro err herr
    rcases Main.outcome_cases herr with ha | hp
    · right
      have htells := @Interpreter.run_tells io Interpreter.new rfl
        (s.terminal.sink.take s.terminal.run.taken)
      have hloop := hfollows.run.loop
      rw [htied.returned ha] at hloop
      rw [hfollows.run.performed]
      rcases hloop with hresult | ⟨-, hok, -⟩
      · apply htells.error err hresult
      · cases hok
    · left
      have hmem := htied.proxy err hp
      cases honce : s.main.once with
      | true =>
          rw [(hinv.first honce).1] at hmem
          cases hmem
      | false =>
          have hscript : .error err ∈ script s.terminal.lines.items := by
            rw [← hinv.yields honce]
            exact List.mem_append_left _ hmem
          obtain ⟨e, he, htext⟩ := error_mem_script hscript
          rw [hfollows.lines.items] at he
          exact ⟨e, List.mem_of_mem_take he, htext⟩

/-- When all lines are read and all outputs succeed, the only outcome is success. -/
theorem Echoes.success (h : Echoes io s) (hlines : ∀ line ∈ io.lines, ∃ text, line = .ok text)
    (houtput : ∀ outputs, io.output outputs = .ok ()) {o : Outcome ExitCode BoxError}
    (ho : s.run.outcome = some o) :
  o = .ok exitSuccess ∧
    s.terminal.run.performed = (texts io.lines).map fun text => .write (text ++ "\n")
  := by
  cases o with
  | ok v =>
      obtain ⟨rfl, -, hperformed⟩ := h.ok v ho
      exact ⟨rfl, hperformed⟩
  | err err =>
      rcases h.err err ho with ⟨e, he, -⟩ | hfails
      · obtain ⟨text, htext⟩ := hlines _ he
        cases htext
      · rw [houtput] at hfails
        cases hfails
  | panicked => cases h.panicked ho

/-- The application echoes the lines that it reads, in every state of every run.  When all lines are
read and all outputs succeed, its only outcome is success, with all lines echoed. -/
theorem echoes_lines (io : Stdio) {tr : List ApplicationEvent} {s : Application EchoSink}
    (h : (main.machine io).run main.setup tr = some s) :
  Echoes io s ∧
    ((∀ line ∈ io.lines, ∃ text, line = .ok text) → (∀ outputs, io.output outputs = .ok ()) →
      ∀ o, s.run.outcome = some o → o = .ok exitSuccess ∧
        s.terminal.run.performed = (texts io.lines).map fun text => .write (text ++ "\n"))
  := ⟨echoes_of_run h, fun hlines houtput _ ho => (echoes_of_run h).success hlines houtput ho⟩

/-- A run in which the second line cannot be read, before the first one has been written. -/
theorem echoes_lines_error :
  ∃ s, (main.machine ⟨fun _ => .ok (), [.ok "a", .error ⟨.line, "e"⟩]⟩).run main.setup
      [.sink (some (.ok .readLine)), .reserve, .recv, .linesNext, .line,
        .sink (some (.ok (.write "a\n"))), .reserve, .runNext, .recv,
        .sink (some (.ok .readLine)), .reserve, .linesNext, .recv, .linesNext, .line,
        .sink (some (.error "failed to read line from terminal"))] = some s ∧
    s.run.outcome = some (.err "failed to read line from terminal") ∧
    s.terminal.run.performed = [] ∧ s.terminal.sink = [.readLine, .write "a\n", .readLine] ∧
    s.terminal.lines.reads ≤ 3
  := by
  refine ⟨_, rfl, rfl, rfl, rfl, ?_⟩
  have hechoes := @echoes_lines ⟨fun _ => .ok (), [.ok "a", .error ⟨.line, "e"⟩]⟩
    [.sink (some (.ok .readLine)), .reserve, .recv, .linesNext, .line,
      .sink (some (.ok (.write "a\n"))), .reserve, .runNext, .recv,
      .sink (some (.ok .readLine)), .reserve, .linesNext, .recv, .linesNext, .line,
      .sink (some (.error "failed to read line from terminal"))] _ rfl
  exact hechoes.1.reads

end EchoSink

end Terminal

end Cyclers
