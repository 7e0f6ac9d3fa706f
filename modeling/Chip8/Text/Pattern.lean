import Chip8.Text.CharSet

/-!
# Patterns

A pattern says how a stretch of a text looks. It occurs in a text if some stretch looks so.

The places of a text lie between its characters, before the first and behind the last one;
a set of places is a number whose bit `i` stands for place `i`. From a set of places
`advance` finds the places to which a stretch that fits the pattern can lead, so a pattern
occurs iff the places of a text lead anywhere.
-/

namespace Chip8.Text

/-- A condition on the characters around a place. -/
inductive Edge where
  | textStart
  | textEnd
  /-- At the start of the text, or behind a line feed. -/
  | lineStart
  /-- At the end of the text, or before a line feed. -/
  | lineEnd
  /-- At the start of the text, or behind a line end that may be a carriage return. -/
  | anyLineStart
  /-- At the end of the text, or before a line end that may be a carriage return. -/
  | anyLineEnd
  /-- Where a word starts or ends. -/
  | wordEdge
  /-- Where no word starts or ends. -/
  | noWordEdge
  | wordStart
  | wordEnd
  /-- Not behind a character of a word. -/
  | wordStartHalf
  /-- Not before a character of a word. -/
  | wordEndHalf
deriving DecidableEq

namespace Edge

/-- Whether there is a character and it belongs to a word. -/
def isWord (c? : Option Char) : Bool := c?.any fun c => CharSet.wordChars.contains c.toNat

/-- Whether a condition holds between two characters; at an end of the text one of them or
both are missing. -/
def holds (e : Edge) (before? after? : Option Char) : Bool :=
  match e with
  | textStart => before?.isNone
  | textEnd => after?.isNone
  | lineStart => before?.all (· == '\n')
  | lineEnd => after?.all (· == '\n')
  | anyLineStart => before?.all fun c => c == '\n' || (c == '\r' && after? != some '\n')
  | anyLineEnd => after?.all fun c => c == '\r' || (c == '\n' && before? != some '\r')
  | wordEdge => isWord before? != isWord after?
  | noWordEdge => isWord before? == isWord after?
  | wordStart => !isWord before? && isWord after?
  | wordEnd => isWord before? && !isWord after?
  | wordStartHalf => !isWord before?
  | wordEndHalf => !isWord after?

/-- Whether a place depends on what a word is. -/
def isOfWords : Edge → Bool
  | wordEdge | noWordEdge | wordStart | wordEnd | wordStartHalf | wordEndHalf => true
  | _ => false

end Edge

/-- How a stretch of a text looks. -/
inductive Pattern where
  /-- It is empty. -/
  | nothing
  /-- It is one character of a set. -/
  | one (set : CharSet)
  /-- It is empty and lies at a place of some kind. -/
  | edge (e : Edge)
  /-- It is one stretch and then another. -/
  | seq (first second : Pattern)
  /-- It is one of two stretches. -/
  | alt (first second : Pattern)
  /-- It is some stretches in a row, that many at least and at most. -/
  | repeated (part : Pattern) (least : Nat) (most? : Option Nat)
deriving DecidableEq

namespace Pattern

/-- The patterns one after another. -/
def ofParts : List Pattern → Pattern
  | [] => nothing
  | [p] => p
  | p :: rest => seq p (ofParts rest)

/-- One of the patterns; without any, nothing. -/
def ofBranches : List Pattern → Pattern
  | [] => nothing
  | [p] => p
  | p :: rest => alt p (ofBranches rest)

/-- The number with a bit for each member of a list. -/
def bits : List Bool → Nat
  | [] => 0
  | b :: rest => b.toNat + 2 * bits rest

/-- What there is before and behind each place of a text. -/
def surroundings (before? : Option Char) : List Char → List (Option Char × Option Char)
  | [] => [(before?, none)]
  | c :: rest => (before?, some c) :: surroundings (some c) rest

/-- Applies a function a number of times. -/
def iterate (f : Nat → Nat) : Nat → Nat → Nat
  | 0, n => n
  | k + 1, n => iterate f k (f n)

/-- The places to which stretches that start at some places can lead. More stretches in a
row than there are places pass one place twice, so counts above that make no
difference. -/
def advance (text : List Char) : Pattern → Nat → Nat
  | nothing, places => places
  | one set, places => 2 * (places &&& bits (text.map fun c => set.contains c.toNat))
  | edge e, places => places &&& bits ((surroundings none text).map fun (b, a) => e.holds b a)
  | seq p q, places => advance text q (advance text p places)
  | alt p q, places => advance text p places ||| advance text q places
  | repeated p least most?, places =>
    let enough := text.length + 1
    let more := match most? with
      | none => enough
      | some most => min (most - least) enough
    iterate (fun s => s ||| advance text p s) more
      (iterate (advance text p) (min least enough) places)

/-- Whether a pattern occurs in a text. -/
def occursIn (p : Pattern) (text : String) : Bool :=
  let chars := text.toList
  advance chars p (bits (List.replicate (chars.length + 1) true)) != 0

/-- How many parts a pattern has once its repetitions are written out. A part that can be a
character outside ASCII weighs as much as the ways to write such a character. -/
def weight : Pattern → Nat
  | nothing => 0
  | one set => if set.contains 0x100 then 15 else 1
  | edge _ => 1
  | seq p q => p.weight + q.weight
  | alt p q => p.weight + q.weight + 1
  | repeated p least none => p.weight * (least + 1) + 1
  | repeated p _ (some most) => p.weight * most

end Pattern

end Chip8.Text
