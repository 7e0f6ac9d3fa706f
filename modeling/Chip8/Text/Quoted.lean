import Chip8.Text.Printable

/-!
# Quoted text

A text between double quotes, in which quotes, backslashes, line ends, tabs and characters
that are not printable are escaped.
-/

namespace Chip8.Text.Quoted

/-- The hexadecimal digits of a number in lower case, none of them a leading zero. -/
def lowerHex (n : Nat) : String := String.ofList (Nat.toDigits 16 n)

/-- One character of a quoted text. -/
def escape (c : Char) : String :=
  if c = '"' then "\\\""
  else if c = '\\' then "\\\\"
  else if c = '\n' then "\\n"
  else if c = '\r' then "\\r"
  else if c = '\t' then "\\t"
  else if c = '\x00' then "\\0"
  else if isPrintable c then c.toString
  else "\\u\x7b" ++ lowerHex c.toNat ++ "\x7d"

/-- A text between double quotes. -/
def quote (s : String) : String :=
  "\"" ++ String.join (s.toList.map escape) ++ "\""

end Chip8.Text.Quoted
