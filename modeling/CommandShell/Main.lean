import CommandShell.FileTree.Layout
import CommandShell.Program

/-!
# The command line

Reads the whole standard input, runs the shell on it in a fresh machine, and copies what it wrote
to the two output streams.
-/

namespace CommandShell
namespace Main

/-- Reads a stream to its end. -/
partial def readAll (stream : IO.FS.Stream) (before : ByteArray) : IO ByteArray := do
  let block ← stream.read 65536
  if block.isEmpty then return before
  readAll stream (before ++ block)

/-- The place where the shell starts. -/
def home : Path := ["root"]

/-- The machine on which the shell runs. -/
def machine : Machine where
  standing := ⟨FileTree.standard, home⟩
  input := []
  environment := [("PATH", "/usr/local/bin:/usr/bin:/bin"), ("LC_ALL", "C")]

end Main
end CommandShell

open CommandShell in
/-- Runs the shell; the exit code says whether the session could go on to its end. -/
def main : IO UInt32 := do
  let input ← Main.readAll (← IO.getStdin) .empty
  let result := Program.run {} (input.toList.map .byte) ⟨{}, {}, Main.machine⟩
  let out ← IO.getStdout
  let err ← IO.getStderr
  for (stream, bytes) in result.output do
    let target := match stream with
      | .out => out
      | .err => err
    target.write ⟨bytes.toArray⟩
    target.flush
  return UInt32.ofNat result.code
