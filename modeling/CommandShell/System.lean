import CommandShell.CommandError
import CommandShell.Trace

/-!
# The system below a shell

A shell uses three operations of the system: it asks where it stands, goes to another directory,
and launches programs. A system may be put together from directories and a launcher that have
nothing to do with each other; then no launch moves the shell, and going elsewhere changes
nothing for a launch but the place it starts from.
-/

namespace CommandShell

/-- What happens when a program is launched: what it writes, how the launch ends, and the state
of the system afterwards. -/
structure Launch (σ : Type) where
  output : List (Stream × List UInt8)
  answer : Except CommandError Unit
  after : σ

/-- The operations of a system with states `σ` that a shell uses. A refused change of directory
leaves the state as it was. -/
structure System (σ : Type) where
  workingDirectory : σ → String
  changeDirectory : String → σ → Except Fault σ
  launch : List String → σ → Launch σ

/-- Directories to stand in: where one stands, and going elsewhere. -/
structure Directories (δ : Type) where
  workingDirectory : δ → String
  changeDirectory : String → δ → Except Fault δ

/-- A launcher starts a program in a working directory. -/
structure Launcher (κ : Type) where
  launch : List String → (directory : String) → κ → Launch κ

/-- The system of some directories and a launcher. -/
def System.ofParts {δ κ : Type} (directories : Directories δ) (launcher : Launcher κ) :
    System (δ × κ) where
  workingDirectory s := directories.workingDirectory s.1
  changeDirectory path s := (directories.changeDirectory path s.1).map fun there => (there, s.2)
  launch args s :=
    let done := launcher.launch args (directories.workingDirectory s.1) s.2
    ⟨done.output, done.answer, (s.1, done.after)⟩

end CommandShell
