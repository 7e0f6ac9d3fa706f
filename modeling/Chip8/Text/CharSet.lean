/-!
# Sets of characters

Sets put together from ranges of code points, as a pattern names them.
-/

namespace Chip8.Text

/-- A set of characters. -/
inductive CharSet where
  | empty
  /-- The characters from one code point to another. -/
  | range (first last : Nat)
  /-- What is in either set. -/
  | union (a b : CharSet)
  /-- What is in both sets. -/
  | common (a b : CharSet)
  /-- What is in the first set alone. -/
  | without (a b : CharSet)
  /-- What is in one set alone. -/
  | apart (a b : CharSet)
  /-- What is not in the set. -/
  | outside (a : CharSet)
  /-- The set with the other cases of its letters. -/
  | anyCase (a : CharSet)
deriving DecidableEq

namespace CharSet

/-- The code point of the same letter in the other case, for the letters of ASCII. -/
def otherCase (n : Nat) : Nat :=
  if 0x41 ≤ n && n ≤ 0x5a then n + 0x20
  else if 0x61 ≤ n && n ≤ 0x7a then n - 0x20
  else n

/-- Whether the character of a code point is in a set. -/
def contains : CharSet → Nat → Bool
  | empty, _ => false
  | range first last, n => first ≤ n && n ≤ last
  | union a b, n => a.contains n || b.contains n
  | common a b, n => a.contains n && b.contains n
  | without a b, n => a.contains n && !b.contains n
  | apart a b, n => a.contains n != b.contains n
  | outside a, n => !a.contains n
  | anyCase a, n => a.contains n || a.contains (otherCase n)

/-- The set of one character. -/
def single (c : Char) : CharSet := range c.toNat c.toNat

/-- The characters of some ranges. -/
def ofRanges : List (Nat × Nat) → CharSet
  | [] => empty
  | (first, last) :: rest => union (range first last) (ofRanges rest)

/-- Whether a set holds a byte that is no character of ASCII. -/
def hasHighByte (s : CharSet) : Bool := (List.range 128).any fun k => s.contains (128 + k)

/-! ## Named sets -/

/-- The decimal digits. -/
def digits : CharSet := range 0x30 0x39

/-- White space of ASCII. -/
def spaces : CharSet := ofRanges [(0x09, 0x0d), (0x20, 0x20)]

/-- The characters of ASCII that words are made of. -/
def wordChars : CharSet := ofRanges [(0x30, 0x39), (0x41, 0x5a), (0x5f, 0x5f), (0x61, 0x7a)]

/-- The classes of ASCII characters that have a name. -/
def ofClassName? : String → Option CharSet
  | "alnum" => some (ofRanges [(0x30, 0x39), (0x41, 0x5a), (0x61, 0x7a)])
  | "alpha" => some (ofRanges [(0x41, 0x5a), (0x61, 0x7a)])
  | "ascii" => some (range 0x00 0x7f)
  | "blank" => some (ofRanges [(0x09, 0x09), (0x20, 0x20)])
  | "cntrl" => some (ofRanges [(0x00, 0x1f), (0x7f, 0x7f)])
  | "digit" => some digits
  | "graph" => some (range 0x21 0x7e)
  | "lower" => some (range 0x61 0x7a)
  | "print" => some (range 0x20 0x7e)
  | "punct" => some (ofRanges [(0x21, 0x2f), (0x3a, 0x40), (0x5b, 0x60), (0x7b, 0x7e)])
  | "space" => some spaces
  | "upper" => some (range 0x41 0x5a)
  | "word" => some wordChars
  | "xdigit" => some (ofRanges [(0x30, 0x39), (0x41, 0x46), (0x61, 0x66)])
  | _ => none

end CharSet

end Chip8.Text
