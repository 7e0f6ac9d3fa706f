import Chip8.Text.Blank
import Chip8.Text.Pattern.Fault

/-!
# Cursors

A cursor is a place in a written pattern. In a loose pattern blanks are skipped, and so is
what stands between a number sign and the end of its line.
-/

namespace Chip8.Text.Pattern

/-- What is left of a written pattern, and the number of characters before it. -/
structure Cursor where
  rest : List Char
  offset : Nat := 0

namespace Cursor

/-- The characters of some kind in front, and what follows them. In a loose pattern blanks
and comments between them are skipped; `comment` says whether a comment has begun. -/
def collectFrom (loose : Bool) (test : Char → Bool) :
    List Char → Nat → (comment : Bool) → List Char × Cursor
  | [], n, _ => ([], ⟨[], n⟩)
  | c :: rest, n, true => collectFrom loose test rest (n + 1) (c != '\n')
  | c :: rest, n, false =>
    if loose && (isBlank c || c == '#') then collectFrom loose test rest (n + 1) (c == '#')
    else if test c then
      let (chars, after) := collectFrom loose test rest (n + 1) false
      (c :: chars, after)
    else ([], ⟨c :: rest, n⟩)

/-- The characters of some kind in front, and what follows them. -/
def collect (c : Cursor) (loose : Bool) (test : Char → Bool) : List Char × Cursor :=
  collectFrom loose test c.rest c.offset false

/-- The cursor behind the blanks and comments of a loose pattern. -/
def skip (c : Cursor) (loose : Bool) : Cursor := (c.collect loose fun _ => false).2

/-- The cursor one character further. -/
def bump (c : Cursor) : Cursor := ⟨c.rest.tail, c.offset + c.rest.length.min 1⟩

/-- The cursor one character further, behind the blanks and comments of a loose pattern. -/
def next (c : Cursor) (loose : Bool) : Cursor := c.bump.skip loose

/-- The cursor behind a text, if that is in front. -/
def past? (c : Cursor) (text : List Char) : Option Cursor :=
  if text.isPrefixOf c.rest then some ⟨c.rest.drop text.length, c.offset + text.length⟩
  else none

/-- The character in front. -/
def head? (c : Cursor) : Option Char := c.rest.head?

/-- A fault of the character in front, or of the end of the pattern. -/
def fault (c : Cursor) (cause : Cause) : Fault := ⟨cause, ⟨c.offset, c.bump.offset⟩, none⟩

/-- A fault from a place up to the cursor. -/
def faultFrom (c : Cursor) (start : Nat) (cause : Cause) : Fault :=
  ⟨cause, ⟨start, c.offset⟩, none⟩

end Cursor

end Chip8.Text.Pattern
