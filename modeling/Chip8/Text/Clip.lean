/-!
# Clipped text

A text cut down to what fits into a number of bytes. Only whole characters are kept.
-/

namespace Chip8.Text

/-- The first characters that fit into a number of bytes. -/
def clipChars (limit : Nat) : List Char → List Char
  | [] => []
  | c :: rest => if c.utf8Size ≤ limit then c :: clipChars (limit - c.utf8Size) rest else []

/-- The beginning of a text that fits into a number of bytes. -/
def clip (limit : Nat) (s : String) : String := String.ofList (clipChars limit s.toList)

end Chip8.Text
