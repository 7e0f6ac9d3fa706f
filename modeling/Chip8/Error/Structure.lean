import Chip8.Error
import Chip8.Text.Quoted

/-!
# Errors as structured text

The developer's view of an error: the name of its case with every field spelled out.
Numbers are decimal and texts are quoted.
-/

namespace Chip8

/-- The failure with both fields. -/
def ReadFailure.structured (failure : ReadFailure) : String :=
  "Custom \x7b kind: " ++ failure.kind ++ ", error: "
    ++ Text.Quoted.quote failure.message ++ " \x7d"

namespace Error

/-- The name of an error's case. -/
def caseName : Error → String
  | romTooLarge _ _ => "RomTooLarge"
  | invalidInstruction _ _ => "InvalidOpcode"
  | stackOverflow _ => "StackOverflow"
  | stackUnderflow _ => "StackUnderflow"
  | readFailed _ => "Io"

/-- The error with all its fields. -/
def structured (e : Error) : String :=
  e.caseName ++ match e with
    | romTooLarge size limit => s!"({size}, {limit})"
    | invalidInstruction word address =>
      s!" \x7b instruction: Instruction({word.bits.toNat}), address: {address.toNat} \x7d"
    | stackOverflow address => s!" \x7b address: {address.toNat} \x7d"
    | stackUnderflow address => s!" \x7b address: {address.toNat} \x7d"
    | readFailed failure => "(" ++ failure.structured ++ ")"

end Error

end Chip8
