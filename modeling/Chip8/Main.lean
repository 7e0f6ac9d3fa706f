import Chip8.Host.Terminal
import Chip8.Program

/-!
# The command

Runs the program on a terminal: the file is read from disk, the turns of the session from
standard input, pictures go to standard output, records and reports to standard error.
-/

namespace Chip8.Command

/-- The bytes of a file. -/
def contents (filename : String) : IO (Except Program.FileError (List UInt8)) := do
  try
    return .ok (← IO.FS.readBinFile filename).toList
  catch
    | .inappropriateType .. => return .error .isDirectory
    | _ => return .error (.ofAbsent filename)

/-- The turns of the script that a stream holds from here on. -/
partial def turns (input : IO.FS.Stream) (before : Array Host.Turn := #[]) :
    IO (List Host.Turn) := do
  let line ← input.getLine
  if line.isEmpty then return before.toList
  turns input (before.push (Host.Turn.ofLine line))

/-- What the program finds around it on a terminal, when it is told to run a file. -/
def environment (filename : String) : IO Program.Environment := do
  let file ← contents filename
  let logRequest? := (← IO.getEnv "CHIP8_LOG").map LogRequest.ofText
  let entropy := (← IO.getRandomBytes 8).foldl (fun n b => n * 256 + b.toUInt64) 0
  let script ← turns (← IO.getStdin)
  return {
    contents := fun _ => file
    logRequest? := logRequest?
    turns := script
    entropy := entropy }

/-- Shows what the program has done. -/
def present : Program.Outcome → IO Unit
  | .refused refusal => IO.eprintln refusal.message
  | .finished complaints frames log ending => do
    for complaint in complaints do
      IO.eprintln complaint.message
    for record in log do
      IO.eprintln record.text
    for frame in frames do
      IO.println frame.screen.picture
    for line in Program.Outcome.reportOfEnding ending do
      IO.eprintln line

end Chip8.Command

/-- Runs the program on the arguments of its command line. -/
def main (arguments : List String) : IO UInt32 := do
  let env ← match Chip8.CommandLine.parse arguments with
    | .ok options => Chip8.Command.environment options.filename
    | .error _ => pure { contents := fun _ => .error .notFound }
  let outcome := Chip8.Program.run env arguments
  Chip8.Command.present outcome
  return UInt32.ofNat outcome.exitCode
