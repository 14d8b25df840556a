import Cyclers.Terminal.Lines
import Mathlib.Data.List.TakeWhile

/-!
# An interpreter of terminal commands

The purpose of the terminal driver is to do what its commands say, one after another.  `interpret`
does so: it writes and flushes until a command to exit or a failure gives the result, and it yields
a line for each command to read one, also after that.
-/

namespace Cyclers

namespace Terminal

/-- The status code of success. -/
def exitSuccess : ExitCode := 0

/-- What is done to the standard output. -/
inductive Output where
  | write : String → Output
  | flush
  deriving DecidableEq

/-- The standard streams: what comes of the last of some outputs, when all are done one after
another, and what the reader of lines gives until it ends. -/
structure Stdio where
  output : List Output → Except BoxError Unit
  lines : List Line

/-- The result that an output gives, if it fails. -/
def Stdio.failure (io : Stdio) (outputs : List Output) : Option (Except BoxError ExitCode) :=
  match io.output outputs with
  | .ok _ => none
  | .error err => some (.error err)

/-- What has been interpreted: the outputs, the result, and the lines. -/
structure Interpreter where
  outputs : List Output
  result : Option (Except BoxError ExitCode)
  items : List Line

namespace Interpreter

/-- Nothing has been interpreted. -/
def new : Interpreter where
  outputs := []
  result := none
  items := []

/-- Do an output, unless there is a result. -/
def output (io : Stdio) (i : Interpreter) (op : Output) : Interpreter :=
  match i.result with
  | some _ => i
  | none =>
      { i with
        outputs := i.outputs ++ [op]
        result := io.failure (i.outputs ++ [op]) }

/-- Interpret a command. -/
def handle (io : Stdio) (i : Interpreter) : TerminalCommand → Interpreter
  | .write out => i.output io (.write out)
  | .readLine => { i with items := i.items ++ io.lines[i.items.length]?.toList }
  | .flush => i.output io .flush
  | .exit exitCode => { i with result := i.result.or (some (.ok exitCode)) }

/-- What the driver returns: the result, or success when there is none and the sink has ended. -/
def returns (i : Interpreter) (sinkEnded : Bool) : Option (Except BoxError ExitCode) :=
  i.result.or (if sinkEnded then some (.ok exitSuccess) else none)

/-- Interpret some commands one after another. -/
def run (io : Stdio) (i : Interpreter) (commands : List TerminalCommand) : Interpreter :=
  commands.foldl (handle io) i

@[simp]
theorem run_cons (io : Stdio) (i : Interpreter) (command : TerminalCommand)
    (commands : List TerminalCommand) :
  i.run io (command :: commands) = (i.handle io command).run io commands
  := rfl

/-- A command adds to the outputs and the lines. -/
theorem handle_mono (io : Stdio) (i : Interpreter) (command : TerminalCommand) :
  i.outputs <+: (i.handle io command).outputs ∧ i.items <+: (i.handle io command).items
  := by
  have houtput : ∀ op, i.outputs <+: (i.output io op).outputs ∧
      i.items <+: (i.output io op).items := by
    intro op
    rw [output]
    split
    · exact ⟨List.prefix_rfl, List.prefix_rfl⟩
    · exact ⟨List.prefix_append _ _, List.prefix_rfl⟩
  cases command with
  | write out => apply houtput
  | readLine => exact ⟨List.prefix_rfl, List.prefix_append _ _⟩
  | flush => apply houtput
  | exit exitCode => exact ⟨List.prefix_rfl, List.prefix_rfl⟩

/-- A command changes neither the outputs nor the result when there is one. -/
theorem handle_of_result {io : Stdio} {i : Interpreter} {result : Except BoxError ExitCode}
    (h : i.result = some result) (command : TerminalCommand) :
  (i.handle io command).outputs = i.outputs ∧ (i.handle io command).result = some result
  := by
  have houtput : ∀ op, i.output io op = i := by
    intro op
    rw [output, h]
  cases command with
  | write out =>
      rw [handle, houtput]
      exact ⟨rfl, h⟩
  | readLine => exact ⟨rfl, h⟩
  | flush =>
      rw [handle, houtput]
      exact ⟨rfl, h⟩
  | exit exitCode =>
      rw [handle, h]
      exact ⟨rfl, rfl⟩

/-- Commands add to the outputs and the lines. -/
theorem run_mono (io : Stdio) (i : Interpreter) (commands : List TerminalCommand) :
  i.outputs <+: (i.run io commands).outputs ∧ i.items <+: (i.run io commands).items
  := by
  induction commands generalizing i with
  | nil => exact ⟨List.prefix_rfl, List.prefix_rfl⟩
  | cons command commands ih =>
      obtain ⟨houtputs, hitems⟩ := i.handle_mono io command
      rw [run_cons]
      exact ⟨houtputs.trans (ih _).1, hitems.trans (ih _).2⟩

/-- Commands change neither the outputs nor the result when there is one. -/
theorem run_of_result {io : Stdio} {i : Interpreter} {result : Except BoxError ExitCode}
    (h : i.result = some result) (commands : List TerminalCommand) :
  (i.run io commands).outputs = i.outputs ∧ (i.run io commands).result = some result
  := by
  induction commands generalizing i with
  | nil => exact ⟨rfl, h⟩
  | cons command commands ih =>
      obtain ⟨houtputs, hresult⟩ := handle_of_result h command
      rw [run_cons, ← houtputs]
      apply ih hresult

end Interpreter

/-- Interpret the commands of a sink. -/
def interpret (io : Stdio) (commands : List TerminalCommand) : Interpreter :=
  Interpreter.new.run io commands

theorem interpret_append (io : Stdio) (commands rest : List TerminalCommand) :
  interpret io (commands ++ rest) = (interpret io commands).run io rest
  := List.foldl_append

theorem interpret_concat (io : Stdio) (commands : List TerminalCommand)
    (command : TerminalCommand) :
  interpret io (commands ++ [command]) = (interpret io commands).handle io command
  := interpret_append io commands [command]

/-! ### What is interpreted -/

/-- The writes and flushes that precede the first command to exit. -/
def outputsBefore : List TerminalCommand → List Output
  | [] => []
  | .write out :: commands => .write out :: outputsBefore commands
  | .readLine :: commands => outputsBefore commands
  | .flush :: commands => .flush :: outputsBefore commands
  | .exit _ :: _ => []

/-- The status code of the first command to exit. -/
def firstExit : List TerminalCommand → Option ExitCode
  | [] => none
  | .exit exitCode :: _ => some exitCode
  | _ :: commands => firstExit commands

/-- Some outputs succeed, when they are done one after another after some others. -/
def Stdio.Succeeds (io : Stdio) (done outputs : List Output) : Prop :=
  ∀ pre, pre ≠ [] → pre <+: outputs → io.output (done ++ pre) = .ok ()

/-- What interpreting some commands gives.  When all writes and flushes that precede the first
command to exit succeed, they are the outputs, and the status code is the result.  When one fails,
the outputs end with the first that does, and its error is the result.  One line is yielded for each
command to read one, as long as there are lines. -/
structure Interprets (io : Stdio) (commands : List TerminalCommand) (i : Interpreter) : Prop where
  success : io.Succeeds [] (outputsBefore commands) →
    i.outputs = outputsBefore commands ∧ i.result = (firstExit commands).map .ok
  failure : ∀ outputs op rest err, outputsBefore commands = outputs ++ op :: rest →
    io.Succeeds [] outputs → io.output (outputs ++ [op]) = .error err →
    i.outputs = outputs ++ [op] ∧ i.result = some (.error err)
  items : i.items = io.lines.take (commands.count .readLine)

/-- The first of some outputs succeeds, and then the others do. -/
theorem Stdio.succeeds_cons {io : Stdio} {done outputs : List Output} {op : Output} :
  io.Succeeds done (op :: outputs) ↔
    io.output (done ++ [op]) = .ok () ∧ io.Succeeds (done ++ [op]) outputs
  := by
  constructor
  · intro h
    refine ⟨h [op] (List.cons_ne_nil _ _) (List.prefix_append [op] outputs), ?_⟩
    intro pre _ hpre
    rw [List.append_assoc]
    apply h (op :: pre) (List.cons_ne_nil _ _)
    apply List.cons_prefix_cons.mpr ⟨rfl, hpre⟩
  · rintro ⟨hop, h⟩ pre hne hpre
    rcases List.prefix_cons_iff.mp hpre with hnil | ⟨pre', rfl, hpre'⟩
    · cases hne hnil
    · cases pre' with
      | nil => exact hop
      | cons op' pre' =>
          have hboth := h (op' :: pre') (List.cons_ne_nil _ _) hpre'
          rw [List.append_assoc] at hboth
          exact hboth

namespace Interpreter

/-- An output yields no line. -/
theorem output_items (io : Stdio) (i : Interpreter) (op : Output) :
  (i.output io op).items = i.items
  := by
  rw [output]
  split <;> rfl

/-- What an output does when there is no result. -/
theorem output_of_none {io : Stdio} {i : Interpreter} (h : i.result = none) (op : Output) :
  i.output io op = ⟨i.outputs ++ [op], io.failure (i.outputs ++ [op]), i.items⟩
  := by rw [output, h]

/-- When the outputs before the first command to exit succeed, all are done. -/
theorem run_of_succeeds {io : Stdio} {i : Interpreter} (h : i.result = none)
    {commands : List TerminalCommand} (hs : io.Succeeds i.outputs (outputsBefore commands)) :
  (i.run io commands).outputs = i.outputs ++ outputsBefore commands ∧
    (i.run io commands).result = (firstExit commands).map .ok
  := by
  induction commands generalizing i with
  | nil => exact ⟨(List.append_nil _).symm, h⟩
  | cons command commands ih =>
      have houtput : ∀ op, io.Succeeds i.outputs (op :: outputsBefore commands) →
          ((i.output io op).run io commands).outputs = i.outputs ++ op :: outputsBefore commands ∧
            ((i.output io op).run io commands).result = (firstExit commands).map .ok := by
        intro op hs
        obtain ⟨hop, hs⟩ := Stdio.succeeds_cons.mp hs
        rw [output_of_none h, Stdio.failure, hop,
          List.append_cons _ _ (outputsBefore commands)]
        apply ih rfl hs
      cases command with
      | write out => apply houtput (.write out) hs
      | readLine => exact ih (i := i.handle io .readLine) h hs
      | flush => apply houtput .flush hs
      | exit exitCode =>
          rw [run_cons, outputsBefore, List.append_nil]
          apply run_of_result (by rw [handle, h]; rfl)

/-- When an output before the first command to exit fails, it is the last one that is done. -/
theorem run_of_fails {io : Stdio} {i : Interpreter} (h : i.result = none)
    {commands : List TerminalCommand} {outputs rest : List Output} {op : Output} {err : BoxError}
    (heq : outputsBefore commands = outputs ++ op :: rest) (hs : io.Succeeds i.outputs outputs)
    (herr : io.output (i.outputs ++ outputs ++ [op]) = .error err) :
  (i.run io commands).outputs = i.outputs ++ outputs ++ [op] ∧
    (i.run io commands).result = some (.error err)
  := by
  induction commands generalizing i outputs with
  | nil => cases List.append_ne_nil_of_right_ne_nil outputs (List.cons_ne_nil op rest) heq.symm
  | cons command commands ih =>
      have houtput : ∀ op', op' :: outputsBefore commands = outputs ++ op :: rest →
          ((i.output io op').run io commands).outputs = i.outputs ++ outputs ++ [op] ∧
            ((i.output io op').run io commands).result = some (.error err) := by
        intro op' heq
        cases outputs with
        | nil =>
            obtain ⟨rfl, -⟩ := List.cons.inj heq
            rw [List.append_nil] at herr ⊢
            rw [output_of_none h, Stdio.failure, herr]
            apply run_of_result rfl
        | cons op'' outputs =>
            obtain ⟨rfl, hrest⟩ := List.cons.inj heq
            obtain ⟨hop, hs⟩ := Stdio.succeeds_cons.mp hs
            rw [List.append_cons i.outputs] at herr ⊢
            rw [output_of_none h, Stdio.failure, hop]
            apply ih rfl hrest hs herr
      cases command with
      | write out => apply houtput (.write out) heq
      | readLine => exact ih (i := i.handle io .readLine) h heq hs herr
      | flush => apply houtput .flush heq
      | exit exitCode =>
          cases List.append_ne_nil_of_right_ne_nil outputs (List.cons_ne_nil op rest) heq.symm

end Interpreter

/-- What follows the first items of a list. -/
theorem getElem?_length_take {α : Type*} (l : List α) (n : ℕ) :
  l[(l.take n).length]? = l[n]?
  := by
  rcases Nat.le_total n l.length with hle | hle
  · rw [List.length_take_of_le hle]
  · rw [List.take_of_length_le hle, List.getElem?_eq_none (Nat.le_refl _),
      List.getElem?_eq_none hle]

/-- One line is yielded for each command to read one, as long as there are lines. -/
theorem interpret_items (io : Stdio) (commands : List TerminalCommand) :
  (interpret io commands).items = io.lines.take (commands.count .readLine)
  := by
  induction commands using List.reverseRecOn with
  | nil => rfl
  | append_singleton commands command ih =>
      rw [interpret_concat, List.count_append]
      cases command with
      | write out =>
          rw [Interpreter.handle, Interpreter.output_items, ih]
          rfl
      | readLine =>
          rw [Interpreter.handle, ih, getElem?_length_take, ← List.take_add_one]
          rfl
      | flush =>
          rw [Interpreter.handle, Interpreter.output_items, ih]
          rfl
      | exit exitCode =>
          rw [Interpreter.handle, ih]
          rfl

/-- The lines are those of the native `lines`, when its reader gives them. -/
theorem interpret_items_native {io : Stdio} {codec : LinesCodec} {n : ℕ}
    {stdin : Except BoxError (Stdin n)} (h : io.lines = nativeLine codec stdin)
    (commands : List TerminalCommand) :
  (interpret io commands).items = linesNative codec stdin commands
  := by
  rw [interpret_items, h, linesNative, readLines_nextLine]

/-- The interpreter does what interpreting is. -/
theorem interprets (io : Stdio) (commands : List TerminalCommand) :
  Interprets io commands (interpret io commands)
  := by
  refine ⟨?_, ?_, interpret_items io commands⟩
  · intro hs
    apply Interpreter.run_of_succeeds rfl hs
  · intro outputs op rest err heq hs herr
    apply Interpreter.run_of_fails rfl heq hs herr

end Terminal

end Cyclers
