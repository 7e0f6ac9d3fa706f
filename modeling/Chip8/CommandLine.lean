import Chip8.Host.Window

/-!
# The command line

The program is told the name of a file, and options: `--speed`, `--scale` and `--seed`
with a number, and `-v` or `--verbose`, once or more, for more log output. Arguments are
taken from left to right and the first that is wrong, or that asks for help or the
version, ends the reading.

An option has its value in the same argument after `=`, or in the next argument unless
that begins with a dash and goes on; the latest value counts. A value in an argument of
its own is not judged before the argument after it is known to have a place, so where both
are wrong the argument without a place is reported. Letters of flags can share one dash.
After `--` every argument is a file name. A number is decimal and can have a plus sign.
-/

namespace Chip8.CommandLine

/-- What the command line says. -/
structure Options where
  filename : String
  settings : Host.Settings := {}
  seed? : Option UInt64 := none
  verbosity : UInt8 := 0
deriving DecidableEq

/-- Why the reading ended early. -/
inductive Refusal where
  /-- Help was asked for. -/
  | help
  /-- The version was asked for. -/
  | version
  /-- There is no such option, or there is one file name too many. -/
  | unknownArgument
  /-- The value of an option is no number it can have. -/
  | invalidValue
  /-- An option has no value. -/
  | missingValue
  /-- A flag has a value. -/
  | unexpectedValue
  /-- There is no file name. -/
  | missingFilename
deriving DecidableEq

/-- How the program is called. -/
def usage : String :=
  "Usage: chip8 [--speed HZ] [--scale POINTS] [--seed NUMBER] [-v]... FILENAME"

/-- What a user is told. -/
def Refusal.message : Refusal → String
  | help => usage
  | version => "chip8 0.1.0"
  | unknownArgument => "Error: an argument is not known\n" ++ usage
  | invalidValue => "Error: the value of an option is not valid\n" ++ usage
  | missingValue => "Error: an option has no value\n" ++ usage
  | unexpectedValue => "Error: a flag has a value\n" ++ usage
  | missingFilename => "Error: there is no file name\n" ++ usage

/-- The options that have a value. -/
inductive Setting where
  | speed
  | scale
  | seed
deriving DecidableEq

/-- The options that have no value. -/
inductive Flag where
  | verbose
  | help
  | version
deriving DecidableEq

/-- An option with a value, by its name. -/
def Setting.ofName? : List Char → Option Setting
  | ['s', 'p', 'e', 'e', 'd'] => some .speed
  | ['s', 'c', 'a', 'l', 'e'] => some .scale
  | ['s', 'e', 'e', 'd'] => some .seed
  | _ => none

/-- The least value of an option. -/
def Setting.least : Setting → Nat
  | speed => 1
  | scale => 1
  | seed => 0

/-- The greatest value of an option. -/
def Setting.most : Setting → Nat
  | speed => 4294967295
  | scale => 4294967295
  | seed => 18446744073709551615

/-- An option without a value, by its name. -/
def Flag.ofName? : List Char → Option Flag
  | ['v', 'e', 'r', 'b', 'o', 's', 'e'] => some .verbose
  | ['h', 'e', 'l', 'p'] => some .help
  | ['v', 'e', 'r', 's', 'i', 'o', 'n'] => some .version
  | _ => none

/-- An option without a value, by its letter. -/
def Flag.ofLetter? : Char → Option Flag
  | 'v' => some .verbose
  | 'h' => some .help
  | 'V' => some .version
  | _ => none

/-- An argument by its form. -/
inductive Argument where
  /-- Two dashes alone. -/
  | separator
  /-- Two dashes and a name, and what comes after the first `=`. -/
  | long (name : List Char) (value? : Option (List Char))
  /-- A dash and letters. -/
  | short (letters : List Char)
  /-- Anything else, a lone dash too. -/
  | plain (text : List Char)
deriving DecidableEq

namespace Argument

/-- The part before the first `=` and the part after it. -/
def splitValue : List Char → List Char × Option (List Char)
  | [] => ([], none)
  | '=' :: rest => ([], some rest)
  | c :: rest => (c :: (splitValue rest).1, (splitValue rest).2)

/-- The form of an argument. -/
def ofChars : List Char → Argument
  | ['-', '-'] => separator
  | '-' :: '-' :: rest => long (splitValue rest).1 (splitValue rest).2
  | '-' :: letter :: rest => short (letter :: rest)
  | text => plain text

end Argument

/-- The number that decimal digits write after the digits that `acc` stands for. -/
def digitsValue? (acc : Nat) : List Char → Option Nat
  | [] => some acc
  | c :: rest =>
    if '0' ≤ c ∧ c ≤ '9' then digitsValue? (acc * 10 + (c.toNat - 48)) rest else none

/-- The number that a text writes: one decimal digit or more, after a plus sign or not. -/
def number? : List Char → Option Nat
  | [] => none
  | ['+'] => none
  | '+' :: digits => digitsValue? 0 digits
  | digits => digitsValue? 0 digits

/-- The value of an option that a text writes. -/
def Setting.value? (setting : Setting) (text : List Char) : Option Nat :=
  (number? text).filter fun n => setting.least ≤ n && n ≤ setting.most

/-- What the arguments so far leave to settle. -/
inductive Pending where
  | nothing
  /-- An option whose value the next argument can be. -/
  | option (setting : Setting)
  /-- An option and the argument that is its value and has not been judged. -/
  | value (setting : Setting) (text : List Char)
deriving DecidableEq

/-- What has been read so far. -/
structure Draft where
  filename? : Option String := none
  settings : Host.Settings := {}
  seed? : Option UInt64 := none
  verbosity : UInt8 := 0
  pending : Pending := .nothing
  /-- The options that had no value where they were last met. -/
  valueless : List Setting := []
  /-- Whether `--` has been met. -/
  separated : Bool := false
deriving DecidableEq

namespace Draft

/-- Gives an option a value. -/
def put (d : Draft) (setting : Setting) (n : Nat) : Draft :=
  match setting with
  | .speed => { d with settings := { d.settings with speed := UInt32.ofNat n } }
  | .scale => { d with settings := { d.settings with scale := UInt32.ofNat n } }
  | .seed => { d with seed? := some (UInt64.ofNat n) }

/-- Judges the value of an option and takes it. -/
def assign (d : Draft) (setting : Setting) (text : List Char) : Except Refusal Draft :=
  match setting.value? text with
  | some n => .ok ({ d with valueless := d.valueless.erase setting }.put setting n)
  | none => .error .invalidValue

/-- Leaves nothing to settle: judges the value that is pending, if there is one. -/
def settle (d : Draft) : Except Refusal Draft :=
  match d.pending with
  | .value setting text => { d with pending := .nothing }.assign setting text
  | _ => .ok { d with pending := .nothing }

/-- Waits for the value of an option. -/
def await (d : Draft) (setting : Setting) : Draft :=
  { d with pending := .option setting, valueless := d.valueless.insert setting }

/-- Takes a flag. -/
def takeFlag (d : Draft) (flag : Flag) : Except Refusal Draft := do
  let d ← d.settle
  match flag with
  | .verbose => .ok { d with verbosity := d.verbosity + 1 }
  | .help => .error .help
  | .version => .error .version

/-- Takes the flags of a list of letters. -/
def takeFlags (d : Draft) : List Char → Except Refusal Draft
  | [] => .ok d
  | letter :: rest =>
    match Flag.ofLetter? letter with
    | none => .error .unknownArgument
    | some flag =>
      match d.takeFlag flag with
      | .ok d => d.takeFlags rest
      | .error refusal => .error refusal

/-- Takes the name of the file. -/
def takeFilename (d : Draft) (filename : List Char) : Except Refusal Draft :=
  match d.filename? with
  | some _ => .error .unknownArgument
  | none => do
    let d ← d.settle
    return { d with filename? := some (String.ofList filename) }

/-- Takes an option, and its value if that is in the same argument. -/
def takeSetting (d : Draft) (setting : Setting) (value? : Option (List Char)) :
    Except Refusal Draft := do
  let d ← d.settle
  match value? with
  | some value => d.assign setting value
  | none => return d.await setting

/-- Takes one argument. -/
def take (d : Draft) (text : List Char) : Except Refusal Draft :=
  if d.separated then d.takeFilename text
  else
    match Argument.ofChars text with
    | .separator => .ok { d with separated := true }
    | .short letters => d.takeFlags letters
    | .long name value? =>
      match Setting.ofName? name, Flag.ofName? name, value? with
      | some setting, _, _ => d.takeSetting setting value?
      | none, some _, some _ => .error .unexpectedValue
      | none, some flag, none => d.takeFlag flag
      | none, none, _ => .error .unknownArgument
    | .plain text =>
      match d.pending with
      | .option setting => .ok { d with pending := .value setting text }
      | _ => d.takeFilename text

/-- Takes arguments from left to right. -/
def takeAll (d : Draft) : List String → Except Refusal Draft
  | [] => .ok d
  | text :: rest =>
    match d.take text.toList with
    | .ok d => d.takeAll rest
    | .error refusal => .error refusal

/-- What has been read, if nothing is missing. An option at the very end that waits for
its value is noticed before a missing file name, one further left after it. -/
def finish (d : Draft) : Except Refusal Options :=
  match d.pending with
  | .option _ => .error .missingValue
  | _ => do
    let d ← d.settle
    match d.filename? with
    | none => .error .missingFilename
    | some filename =>
      if d.valueless.isEmpty then .ok ⟨filename, d.settings, d.seed?, d.verbosity⟩
      else .error .missingValue

end Draft

/-- What the arguments of a command line say. -/
def parse (arguments : List String) : Except Refusal Options :=
  match ({} : Draft).takeAll arguments with
  | .ok d => d.finish
  | .error refusal => .error refusal

end Chip8.CommandLine
