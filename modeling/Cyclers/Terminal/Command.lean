import Mathlib.Init

/-!
# Commands of the terminal driver
-/

namespace Cyclers

/-- The status code that a process exits with. -/
abbrev ExitCode := UInt8

/-- A command of the terminal driver. -/
inductive TerminalCommand where
  | write : String → TerminalCommand
  | readLine
  | flush
  | exit : ExitCode → TerminalCommand
  deriving DecidableEq

end Cyclers
