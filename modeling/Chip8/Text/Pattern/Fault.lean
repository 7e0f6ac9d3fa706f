/-!
# Faults in patterns

What can be wrong with a written pattern, where it is, and how a user is told: the
pattern, marks below what is wrong with it, and the cause.
-/

namespace Chip8.Text.Pattern

/-- A stretch of a written pattern, from one character up to another, counted from zero. -/
structure Span where
  start : Nat
  stop : Nat
deriving DecidableEq

/-- What is wrong with a written pattern. -/
inductive Cause where
  | classEscapeInvalid
  | classRangeInvalid
  | classRangeLiteral
  | classUnclosed
  | decimalInvalid
  | escapeHexEmpty
  | escapeHexInvalid
  | escapeHexInvalidDigit
  | escapeUnexpectedEnd
  | escapeUnrecognized
  | flagDanglingNegation
  | flagDuplicate
  | flagRepeatedNegation
  | flagUnexpectedEnd
  | flagUnrecognized
  | groupNameDuplicate
  | groupNameEmpty
  | groupNameInvalid
  | groupNameUnexpectedEnd
  | groupUnclosed
  | groupUnopened
  | countInvalid
  | countDecimalEmpty
  | countUnclosed
  | repetitionMissing
  | wordEdgeUnclosed
  | wordEdgeUnrecognized
  | wordEdgeUnexpectedEnd
  | propertyInvalid
  | backreference
  | lookAround
  /-- Only a pattern for bytes can hold this, or only one for characters. -/
  | unicodeNotAllowed
  /-- The pattern fits what is no text. -/
  | notText
  | propertyNotFound
  | propertyValueNotFound
  | namedClassUnavailable
  | caseUnavailable
deriving DecidableEq

namespace Cause

/-- What a user is told. -/
def message : Cause → String
  | classEscapeInvalid => "invalid escape sequence found in character class"
  | classRangeInvalid => "invalid character class range, the start must be <= the end"
  | classRangeLiteral => "invalid range boundary, must be a literal"
  | classUnclosed => "unclosed character class"
  | decimalInvalid => "decimal literal invalid"
  | escapeHexEmpty => "hexadecimal literal empty"
  | escapeHexInvalid => "hexadecimal literal is not a Unicode scalar value"
  | escapeHexInvalidDigit => "invalid hexadecimal digit"
  | escapeUnexpectedEnd => "incomplete escape sequence, reached end of pattern prematurely"
  | escapeUnrecognized => "unrecognized escape sequence"
  | flagDanglingNegation => "dangling flag negation operator"
  | flagDuplicate => "duplicate flag"
  | flagRepeatedNegation => "flag negation operator repeated"
  | flagUnexpectedEnd => "expected flag but got end of regex"
  | flagUnrecognized => "unrecognized flag"
  | groupNameDuplicate => "duplicate capture group name"
  | groupNameEmpty => "empty capture group name"
  | groupNameInvalid => "invalid capture group character"
  | groupNameUnexpectedEnd => "unclosed capture group name"
  | groupUnclosed => "unclosed group"
  | groupUnopened => "unopened group"
  | countInvalid => "invalid repetition count range, the start must be <= the end"
  | countDecimalEmpty => "repetition quantifier expects a valid decimal"
  | countUnclosed => "unclosed counted repetition"
  | repetitionMissing => "repetition operator missing expression"
  | wordEdgeUnclosed =>
    "special word boundary assertion is either unclosed or contains an invalid character"
  | wordEdgeUnrecognized =>
    "unrecognized special word boundary assertion, valid choices are: "
      ++ "start, end, start-half or end-half"
  | wordEdgeUnexpectedEnd =>
    "found either the beginning of a special word boundary or a bounded repetition on a \\b "
      ++ "with an opening brace, but no closing brace"
  | propertyInvalid => "invalid Unicode character class"
  | backreference => "backreferences are not supported"
  | lookAround => "look-around, including look-ahead and look-behind, is not supported"
  | unicodeNotAllowed => "Unicode not allowed here"
  | notText => "pattern can match invalid UTF-8"
  | propertyNotFound => "Unicode property not found"
  | propertyValueNotFound => "Unicode property value not found"
  | namedClassUnavailable =>
    "Unicode-aware Perl class not found (make sure the unicode-perl feature is enabled)"
  | caseUnavailable =>
    "Unicode-aware case insensitivity matching is not available "
      ++ "(make sure the unicode-case feature is enabled)"

end Cause

/-- A cause, where it is, and an earlier stretch that it has to do with. -/
structure Fault where
  cause : Cause
  span : Span
  earlier? : Option Span := none
deriving DecidableEq

/-- Why a written pattern cannot be used. -/
inductive Refusal where
  /-- It is not well written, or asks for what there is no table for. -/
  | faulty (fault : Fault)
  /-- It asks for edges of words that there is no table for. -/
  | unbuildable
  /-- It has too many parts. -/
  | tooBig
deriving DecidableEq

namespace Refusal

/-- Marks below a stretch of a line, with blanks up to it from a column on. -/
def marks (column : Nat) (s : Span) : String :=
  String.ofList
    (List.replicate (s.start - column) ' ' ++ List.replicate (s.stop - s.start - 1) '^')
    ++ "^"

/-- The marks below all that a fault has to do with. -/
def allMarks (f : Fault) : String :=
  match f.earlier? with
  | none => marks 0 f.span
  | some earlier => marks 0 earlier ++ marks (earlier.start.max (earlier.stop - 1) + 1) f.span

/-- What a user is told of a written pattern. -/
def message (written : String) : Refusal → String
  | faulty f =>
    "regex parse error:\n    " ++ written ++ "\n    " ++ allMarks f
      ++ "\nerror: " ++ f.cause.message
  | unbuildable => "error building NFA"
  | tooBig => "Compiled regex exceeds size limit of 10485760 bytes."

end Refusal

end Chip8.Text.Pattern
