import Chip8.Word

/-!
# Errors

Everything that can go wrong with a machine. A program can be too large for memory, or the
device it is read from can fail; a step can meet a word that is no instruction, a call
with every call slot taken, or a return without a call. The address of such a fault is the
one its word was fetched from, with all sixteen bits.
-/

namespace Chip8

/-- A failure of the device a program is read from: the kind of failure and its message. -/
structure ReadFailure where
  kind : String
  message : String
deriving DecidableEq

/-- An error of the machine. -/
inductive Error where
  | romTooLarge (size limit : Nat)
  | invalidInstruction (word : Word) (address : UInt16)
  | stackOverflow (address : UInt16)
  | stackUnderflow (address : UInt16)
  | readFailed (failure : ReadFailure)
deriving DecidableEq

namespace Error

/-- What a user is told. -/
def message : Error → String
  | romTooLarge size limit => s!"ROM is too large: {size} bytes (maximum is {limit} bytes)"
  | invalidInstruction word address =>
    "Invalid instruction at address " ++ Text.Hex.address address ++ ": " ++ word.text
  | stackOverflow address => "Stack overflow on call at address " ++ Text.Hex.address address
  | stackUnderflow address =>
      "Stack underflow on return at address " ++ Text.Hex.address address
  | readFailed failure => "IO Error: " ++ failure.message

/-- The message of the failure behind an error, where there is one. -/
def cause? : Error → Option String
  | readFailed failure => some failure.message
  | _ => none

end Error

end Chip8
