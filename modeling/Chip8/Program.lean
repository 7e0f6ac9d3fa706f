import Chip8.CommandLine
import Chip8.Host
import Chip8.Log.Request

/-!
# The program

The program reads its command line, reads the file named there, loads it into a fresh
machine and runs the machine on the desktop. Whatever of this fails first is reported with
its cause. Everything the program learns of its surroundings is an `Environment`; what it
does is an `Outcome`.
-/

namespace Chip8.Program

/-- Why a file cannot be read. -/
inductive FileError where
  | notFound
  | isDirectory
  | nameTooLong
deriving DecidableEq

namespace FileError

/-- What a user is told. -/
def message : FileError → String
  | notFound => "No such file or directory (os error 2)"
  | isDirectory => "Is a directory (os error 21)"
  | nameTooLong => "File name too long (os error 36)"

/-- Why a name that no file has cannot be read. The parts between slashes are looked up
one after another, those that stay in a directory apart, and the first one is missing or
too long to be looked up. A name of nothing but such steps is a directory. -/
def ofAbsent (filename : String) : FileError :=
  let steps := ["", ".", ".."]
  if 4096 ≤ filename.utf8ByteSize then nameTooLong
  else
    match (filename.splitOn "/").find? fun part => !steps.contains part with
    | some part => if 255 < part.utf8ByteSize then nameTooLong else notFound
    | none => if filename.isEmpty then notFound else isDirectory

end FileError

/-- What a program finds around it. -/
structure Environment where
  /-- The bytes of a file. -/
  contents : String → Except FileError (List UInt8)
  /-- The records that the user asks for in all programs. -/
  logRequest? : Option LogRequest := none
  /-- The names of sources that such requests are about. -/
  sourceName : Source → String := Source.name
  /-- The state of the desktop. -/
  desktop : Host.Desktop := {}
  /-- The turns that the host will see. -/
  turns : List Host.Turn := []
  /-- The seed of a program that is not told one. -/
  entropy : UInt64 := 0
  /-- How many cycles of a turn without end are followed. -/
  patience : Nat := Host.longPatience

/-- Why the program gave up. -/
inductive Failure where
  | unreadable (filename : String) (error : FileError)
  | unloadable (error : Error)
  | host (failure : Host.Failure)
deriving DecidableEq

namespace Failure

/-- What could not be done. -/
def headline : Failure → String
  | unreadable filename _ => "error opening rom file: " ++ filename
  | unloadable _ => "error loading rom"
  | host failure => failure.headline

/-- Why it could not be done. -/
def cause : Failure → String
  | unreadable _ error => error.message
  | unloadable error => error.message
  | host failure => failure.cause

/-- The failure and its cause, as the program reports them. -/
def report (f : Failure) : String :=
  "Error: " ++ f.headline ++ "\n\nCaused by:\n    " ++ f.cause

end Failure

/-- What the program has done. -/
inductive Outcome where
  /-- The command line was refused, or asked for a text and no more. -/
  | refused (refusal : CommandLine.Refusal)
  /-- The program has complained about the records asked for, shown some frames and logged
  some records, and has ended. -/
  | finished (complaints : List LogComplaint) (frames : Array Host.Frame) (log : List Record)
    (ending : Host.Ending Failure)

namespace Outcome

/-- The status that the program leaves to who has called it. -/
def exitCode : Outcome → Nat
  | refused .help => 0
  | refused .version => 0
  | refused _ => 2
  | finished _ _ _ .quit => 0
  | finished _ _ _ _ => 1

/-- What an ending is reported with. -/
def reportOfEnding : Host.Ending Failure → List String
  | .quit => []
  | .failed failure => [failure.report]
  | .unsettled => ["Error: a turn does not end"]

/-- What the program tells besides its records, unless it was refused: its complaints and
how it has failed, if it has. -/
def report? : Outcome → Option String
  | refused _ => none
  | finished complaints _ _ ending =>
    some ("\n".intercalate (complaints.map LogComplaint.message ++ reportOfEnding ending))

end Outcome

/-- The records that are shown: those that the user asks for in all programs, or else
those of the verbosity. -/
def filterFor (env : Environment) (options : CommandLine.Options) : LogFilter :=
  match env.logRequest? with
  | some request => request.filter env.sourceName
  | none => .ofVerbosity options.verbosity.toNat

/-- The machine of a program: seeded as the user says, with the file loaded. -/
def boot (env : Environment) (options : CommandLine.Options) : Except Failure Recorder :=
  match env.contents options.filename with
  | .error e => .error (.unreadable options.filename e)
  | .ok bytes =>
    let random := RandomBytes.ofSeed (options.seed?.getD env.entropy)
    match Recorder.load ⟨Machine.fresh random, filterFor env options, #[]⟩ bytes with
    | (recorder, none) => .ok recorder
    | (_, some e) => .error (.unloadable e)

/-- What the program does. -/
def run (env : Environment) (arguments : List String) : Outcome :=
  match CommandLine.parse arguments with
  | .error refusal => .refused refusal
  | .ok options =>
    let complaints := (env.logRequest?.map (·.complaints)).getD []
    match boot env options with
    | .error failure => .finished complaints #[] [] (.failed failure)
    | .ok recorder =>
      let result := Host.run options.settings env.desktop env.patience recorder env.turns
      .finished complaints result.frames result.log.toList (result.ending.map .host)

end Chip8.Program
