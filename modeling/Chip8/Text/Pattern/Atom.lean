import Chip8.Text.Pattern
import Chip8.Text.Pattern.Cursor

/-!
# Atoms of patterns

The smallest parts of a written pattern: characters, as they are or escaped, and signs
that stand for characters or places of some kind. What an atom means depends on the modes
it is read in. A pattern fits texts, so an atom for bytes that are no characters is
refused; and there are no tables for the letters of all languages, so what needs these is
refused too.
-/

namespace Chip8.Text.Pattern

/-- How the parts of a pattern are understood. -/
structure Modes where
  /-- Letters stand for both cases. -/
  ignoreCase : Bool := false
  /-- Line ends are edges. -/
  multiLine : Bool := false
  /-- A dot can be a line end. -/
  dotAll : Bool := false
  /-- A carriage return ends a line. -/
  carriageReturns : Bool := false
  /-- Blanks and comments are skipped. -/
  loose : Bool := false
  /-- The parts are characters, and not bytes. -/
  unicode : Bool := true
deriving DecidableEq

/-- The smallest parts of a written pattern. -/
inductive Atom where
  /-- A character, written as a byte or not. -/
  | char (c : Char) (isByte : Bool)
  | dot
  | caret
  | dollar
  | edge (e : Edge)
  /-- A class of characters with a letter for its name. -/
  | named (set : CharSet) (negated : Bool)
  /-- The characters that have a property. -/
  | property (name : List Char)

/-! ## Meaning -/

namespace Atom

/-- The names that are looked up among the values of properties. -/
def valueNames : List String := ["cf", "lc", "sc"]

/-- The characters that a class stands for. -/
def setOfNamed (m : Modes) (set : CharSet) (negated : Bool) : Except Cause CharSet :=
  if m.unicode then .error .namedClassUnavailable
  else if negated then .error .notText
  else .ok set

/-- Why there are no characters with a property. -/
def causeOfProperty (m : Modes) (name : List Char) : Cause :=
  if !m.unicode then .unicodeNotAllowed
  else if valueNames.contains (String.ofList name).toLower then .propertyValueNotFound
  else .propertyNotFound

/-- What a character stands for. -/
def setOfChar (m : Modes) (c : Char) (isByte : Bool) : Except Cause CharSet :=
  if !m.unicode && isByte && 0x7f < c.toNat then .error .notText
  else if !m.ignoreCase then .ok (.single c)
  else if m.unicode then .error .caseUnavailable
  else .ok (.anyCase (.single c))

/-- What a dot stands for. -/
def setOfDot (m : Modes) : Except Cause CharSet :=
  if !m.unicode then .error .notText
  else if m.dotAll then .ok (.outside .empty)
  else if m.carriageReturns then .ok (.outside (.ofRanges [(0x0a, 0x0a), (0x0d, 0x0d)]))
  else .ok (.outside (.single '\n'))

/-- The pattern of an atom at a place. -/
def pattern (m : Modes) (span : Span) (a : Atom) : Except Refusal Pattern :=
  let refusal (cause : Cause) : Refusal := .faulty ⟨cause, span, none⟩
  let lines (strict any single : Edge) : Pattern :=
    .edge (if !m.multiLine then single else if m.carriageReturns then any else strict)
  match a with
  | char c isByte => ((setOfChar m c isByte).map Pattern.one).mapError refusal
  | dot => ((setOfDot m).map Pattern.one).mapError refusal
  | caret => .ok (lines .lineStart .anyLineStart .textStart)
  | dollar => .ok (lines .lineEnd .anyLineEnd .textEnd)
  | edge e => if e.isOfWords && m.unicode then .error .unbuildable else .ok (.edge e)
  | named set negated => ((setOfNamed m set negated).map Pattern.one).mapError refusal
  | property name => .error (refusal (causeOfProperty m name))

end Atom

/-! ## Reading -/

/-- Whether a character is a hexadecimal digit. -/
def isHexDigit (c : Char) : Bool :=
  c.isDigit || ('a' ≤ c && c ≤ 'f') || ('A' ≤ c && c ≤ 'F')

/-- The value of a hexadecimal digit. -/
def hexDigitValue (c : Char) : Nat :=
  if c.isDigit then c.toNat - 0x30 else if 'a' ≤ c then c.toNat - 0x57 else c.toNat - 0x37

/-- The character of a code point in hexadecimal digits. -/
def charOfHex? (digits : List Char) : Option Char :=
  let n := digits.foldl (fun n d => 16 * n + hexDigitValue d) 0
  if n.isValidChar then some (Char.ofNat n) else none

/-- Reads a number of hexadecimal digits. -/
def readHexDigits (loose : Bool) : Nat → Cursor → Except Fault (List Char × Cursor)
  | 0, c => .ok ([], c)
  | k + 1, c =>
    match c.rest with
    | [] => .error (c.fault .escapeUnexpectedEnd)
    | d :: _ =>
      if isHexDigit d then do
        let (digits, after) ← readHexDigits loose k (c.next loose)
        .ok (d :: digits, after)
      else .error (c.fault .escapeHexInvalidDigit)

/-- Reads the code point of a character: digits of a fixed width, or any number of them
between braces. The cursor stands on the letter before it. -/
def readHex (loose : Bool) (width : Nat) (c : Cursor) : Except Fault (Atom × Cursor) := do
  let opening := c.next loose
  if opening.head? = some '\x7b' then
    let inner := opening.next loose
    let (digits, after) := inner.collect loose isHexDigit
    match after.head? with
    | none => .error (after.faultFrom opening.offset .escapeUnexpectedEnd)
    | some '\x7d' =>
      let behind := after.next loose
      if digits.isEmpty then .error (behind.faultFrom opening.offset .escapeHexEmpty)
      else
        match charOfHex? digits with
        | some char => .ok (.char char false, behind)
        | none => .error (after.faultFrom (opening.offset + 1) .escapeHexInvalid)
    | some _ => .error (after.fault .escapeHexInvalidDigit)
  else
    let (digits, after) ← readHexDigits loose width opening
    match charOfHex? digits with
    | some char => .ok (.char char (width == 2), after)
    | none => .error (after.faultFrom opening.offset .escapeHexInvalid)

/-- Reads the name of a property: a letter, or anything between braces. The cursor stands
on the letter before it. -/
def readProperty (loose : Bool) (c : Cursor) : Except Fault (Atom × Cursor) :=
  let opening := c.next loose
  match opening.rest with
  | [] => .error (opening.fault .escapeUnexpectedEnd)
  | '\x7b' :: _ =>
    let (name, after) := (opening.next loose).collect loose (· != '\x7d')
    if after.rest.isEmpty then .error (after.fault .escapeUnexpectedEnd)
    else .ok (.property name, after.bump)
  | '\\' :: _ => .error (opening.fault .propertyInvalid)
  | letter :: _ => .ok (.property [letter], opening.next loose)

/-- The edges of words that have a name. -/
def wordEdgeOfName? : String → Option Edge
  | "start" => some .wordStart
  | "end" => some .wordEnd
  | "start-half" => some .wordStartHalf
  | "end-half" => some .wordEndHalf
  | _ => none

/-- Reads which edge of a word is meant, if a name between braces says so. The cursor
stands on the brace; what does not begin as a name is a repetition. -/
def readWordEdge (loose : Bool) (start : Nat) (c : Cursor) : Except Fault (Atom × Cursor) :=
  let isNameChar (d : Char) : Bool := d.isAlpha || d == '-'
  let inner := c.next loose
  match inner.head? with
  | none => .error (inner.faultFrom start .wordEdgeUnexpectedEnd)
  | some d =>
    if !isNameChar d then .ok (.edge .wordEdge, c)
    else
      let (name, after) := inner.collect loose isNameChar
      if after.head? != some '\x7d' then .error (after.faultFrom c.offset .wordEdgeUnclosed)
      else
        match wordEdgeOfName? (String.ofList name) with
        | some e => .ok (.edge e, after.bump)
        | none => .error (after.faultFrom inner.offset .wordEdgeUnrecognized)

/-- Whether a backslash before a character makes it stand for itself. -/
def isEscapable (c : Char) : Bool :=
  c.toNat < 0x80 && !c.isAlphanum && c != '<' && c != '>'

/-- Reads what a backslash begins. -/
def readEscape (loose : Bool) (c : Cursor) : Except Fault (Atom × Cursor) :=
  let letter := c.bump
  let after := letter.bump
  let named (set : CharSet) (negated : Bool) := Except.ok (Atom.named set negated, after)
  match letter.rest with
  | [] => .error (letter.faultFrom c.offset .escapeUnexpectedEnd)
  | 'x' :: _ => readHex loose 2 letter
  | 'u' :: _ => readHex loose 4 letter
  | 'U' :: _ => readHex loose 8 letter
  | 'p' :: _ | 'P' :: _ => readProperty loose letter
  | 'd' :: _ => named .digits false
  | 's' :: _ => named .spaces false
  | 'w' :: _ => named .wordChars false
  | 'D' :: _ => named .digits true
  | 'S' :: _ => named .spaces true
  | 'W' :: _ => named .wordChars true
  | 'a' :: _ => .ok (.char '\x07' false, after)
  | 'f' :: _ => .ok (.char '\x0c' false, after)
  | 't' :: _ => .ok (.char '\t' false, after)
  | 'n' :: _ => .ok (.char '\n' false, after)
  | 'r' :: _ => .ok (.char '\r' false, after)
  | 'v' :: _ => .ok (.char '\x0b' false, after)
  | 'A' :: _ => .ok (.edge .textStart, after)
  | 'z' :: _ => .ok (.edge .textEnd, after)
  | 'b' :: '\x7b' :: _ => readWordEdge loose c.offset after
  | 'b' :: _ => .ok (.edge .wordEdge, after)
  | 'B' :: _ => .ok (.edge .noWordEdge, after)
  | '<' :: _ => .ok (.edge .wordStart, after)
  | '>' :: _ => .ok (.edge .wordEnd, after)
  | d :: _ =>
    if d.isDigit then .error (after.faultFrom c.offset .backreference)
    else if isEscapable d then .ok (.char d false, after)
    else .error (after.faultFrom c.offset .escapeUnrecognized)

/-- Reads an atom that stands in a class: a character, as it is or escaped. -/
def readClassAtom (loose : Bool) (c : Cursor) : Except Fault (Atom × Cursor) :=
  match c.rest with
  | [] => .error (c.fault .classUnclosed)
  | '\\' :: _ => readEscape loose c
  | d :: _ => .ok (.char d false, c.bump)

/-- Reads an atom. -/
def readAtom (loose : Bool) (c : Cursor) : Except Fault (Atom × Cursor) :=
  match c.rest with
  | '.' :: _ => .ok (.dot, c.bump)
  | '^' :: _ => .ok (.caret, c.bump)
  | '$' :: _ => .ok (.dollar, c.bump)
  | _ => readClassAtom loose c

end Chip8.Text.Pattern
