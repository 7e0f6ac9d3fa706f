import Chip8.Text.Pattern.Atom

/-!
# Classes of characters

A class stands between brackets: characters, ranges, classes with a name, and classes
between brackets of their own, after a circumflex those that are not among them. Two
classes can be joined by an operation on sets; operations are carried out from left to
right.
-/

namespace Chip8.Text.Pattern

/-- The operations on two classes. -/
inductive SetOp where
  | common
  | without
  | apart
deriving DecidableEq

/-- Carries out an operation. -/
def SetOp.apply : SetOp → CharSet → CharSet → CharSet
  | common, a, b => .common a b
  | without, a, b => .without a b
  | apart, a, b => .apart a b

/-- A bracket that is not closed yet. -/
structure Bracket where
  negated : Bool
  /-- What opens it. -/
  opening : Span
  /-- What an operation waits for. -/
  before? : Option (CharSet × SetOp) := none
  /-- What has been read since. -/
  items : CharSet

namespace Bracket

/-- A bracket with one more item. -/
def add (b : Bracket) (set : CharSet) : Bracket := { b with items := .union b.items set }

/-- The set up to here: what has been read, joined to what was waiting for it. -/
def joined (m : Modes) (b : Bracket) : CharSet :=
  match b.before? with
  | none => b.items
  | some (before, op) =>
    if m.ignoreCase then op.apply (.anyCase before) (.anyCase b.items)
    else op.apply before b.items

/-- A bracket in which an operation waits for what follows. -/
def wait (m : Modes) (b : Bracket) (op : SetOp) : Bracket :=
  { b with before? := some (b.joined m, op), items := .empty }

/-- The set of a bracket that is closed behind a place. -/
def close (m : Modes) (b : Bracket) (stop : Nat) : CharSet × Option Fault :=
  let set := b.joined m
  let span : Span := ⟨b.opening.start, stop⟩
  if m.unicode && m.ignoreCase then (set, some ⟨.caseUnavailable, span, none⟩)
  else
    let set := if m.ignoreCase then .anyCase set else set
    let set := if b.negated then .outside set else set
    if !m.unicode && set.hasHighByte then (set, some ⟨.notText, span, none⟩) else (set, none)

/-- Opens a bracket. Dashes right behind it, or else a closing bracket there, are
characters. -/
def openAt (loose : Bool) (c : Cursor) : Except Fault (Bracket × Cursor) :=
  let first := c.next loose
  let negated := first.head? == some '^'
  let inner := if negated then first.next loose else first
  let (dashes, after) := inner.collect loose (· == '-')
  let items := if dashes.isEmpty then CharSet.empty else .single '-'
  if inner.rest.isEmpty then .error (inner.faultFrom c.offset .classUnclosed)
  else if after.rest.isEmpty then .error (c.fault .classUnclosed)
  else if dashes.isEmpty && after.head? == some ']' then
    let behind := after.next loose
    if behind.rest.isEmpty then .error (behind.faultFrom c.offset .classUnclosed)
    else .ok (⟨negated, ⟨c.offset, behind.offset⟩, none, .union items (.single ']')⟩, behind)
  else .ok (⟨negated, ⟨c.offset, after.offset⟩, none, items⟩, after)

end Bracket

/-- A class of ASCII characters by its name, between colons and brackets. -/
def readNamedClass? (c : Cursor) : Option (CharSet × Cursor) := do
  let inner ← c.past? ['[', ':']
  let (negated, inner) := match inner.past? ['^'] with
    | some inner => (true, inner)
    | none => (false, inner)
  let (name, after) := inner.collect false (· != ':')
  let behind ← after.past? [':', ']']
  let set ← CharSet.ofClassName? (String.ofList name)
  some (if negated then .outside set else set, behind)

/-- The classes that are open while one is read. -/
structure ClassReading where
  cursor : Cursor
  innermost : Bracket
  outer : List Bracket := []
  /-- The first part of the class that cannot be had. -/
  issue? : Option Fault := none

namespace ClassReading

/-- The fault of a class that is not closed. -/
def unclosed (r : ClassReading) : Fault := ⟨.classUnclosed, r.innermost.opening, none⟩

/-- Goes on behind an item, which may be one that cannot be had. -/
def add (r : ClassReading) (item : Except Fault CharSet) (after : Cursor) : ClassReading :=
  match item with
  | .ok set => { r with cursor := after, innermost := r.innermost.add set }
  | .error fault => { r with cursor := after, issue? := r.issue?.or (some fault) }

/-- What a character in a class stands for: one of ASCII, if the class is one of bytes. -/
def setOfChar (m : Modes) (span : Span) (c : Char) (isByte : Bool) : Except Fault CharSet :=
  if m.unicode || c.toNat < 0x80 then .ok (.single c)
  else .error ⟨if isByte then .notText else .unicodeNotAllowed, span, none⟩

/-- What an atom in a class stands for. The outer error is one of writing, the inner one
says that the item cannot be had. -/
def setOfAtom (m : Modes) (span : Span) : Atom → Except Fault (Except Fault CharSet)
  | .char c isByte => .ok (setOfChar m span c isByte)
  | .named set negated =>
    .ok ((Atom.setOfNamed m set negated).mapError fun cause => ⟨cause, span, none⟩)
  | .property name => .ok (.error ⟨Atom.causeOfProperty m name, span, none⟩)
  | _ => .error ⟨.classEscapeInvalid, span, none⟩

/-- Reads a character, a range or a class with a letter for its name. A dash before a
closing bracket or another dash makes no range. -/
def readRange (m : Modes) (r : ClassReading) (c : Cursor) : Except Fault ClassReading := do
  let (first, behind) ← readClassAtom m.loose c
  let firstSpan : Span := ⟨c.offset, behind.offset⟩
  let dash := behind.skip m.loose
  if dash.rest.isEmpty then throw r.unclosed
  let afterDash := dash.next m.loose
  if dash.head? != some '-' || afterDash.head? == some ']' || afterDash.head? == some '-' then
    return r.add (← setOfAtom m firstSpan first) dash
  if afterDash.rest.isEmpty then throw r.unclosed
  let (last, behind) ← readClassAtom m.loose afterDash
  let lastSpan : Span := ⟨afterDash.offset, behind.offset⟩
  match first, last with
  | .char low isLowByte, .char high isHighByte =>
    if high.toNat < low.toNat then
      throw ⟨.classRangeInvalid, ⟨firstSpan.start, lastSpan.stop⟩, none⟩
    let item := do
      let _ ← setOfChar m firstSpan low isLowByte
      let _ ← setOfChar m lastSpan high isHighByte
      return CharSet.range low.toNat high.toNat
    return r.add item behind
  | .char _ _, _ => throw ⟨.classRangeLiteral, lastSpan, none⟩
  | _, _ => throw ⟨.classRangeLiteral, firstSpan, none⟩

/-- Closes the innermost class: goes on in the one around it, or has read the whole. -/
def close (m : Modes) (r : ClassReading) (after : Cursor) :
    ClassReading ⊕ (Except Fault CharSet × Cursor) :=
  let (set, closing?) := r.innermost.close m after.offset
  let issue? := r.issue?.or closing?
  match r.outer with
  | b :: outer => .inl ⟨after, b.add set, outer, issue?⟩
  | [] =>
    match issue? with
    | some fault => .inr (.error fault, after)
    | none => .inr (.ok set, after)

/-- Reads on to the end of the class. Every round reads at least one character, of which
there are `fuel` at most. -/
def run (m : Modes) (fuel : Nat) (r : ClassReading) :
    Except Fault (Except Fault CharSet × Cursor) :=
  match fuel with
  | 0 => .error r.unclosed
  | fuel + 1 => do
    let c := r.cursor.skip m.loose
    let wait (op : SetOp) : ClassReading :=
      { r with cursor := c.bump.bump, innermost := r.innermost.wait m op }
    match c.rest with
    | [] => throw r.unclosed
    | '[' :: _ =>
      match readNamedClass? c with
      | some (set, after) => run m fuel (r.add (.ok set) after)
      | none =>
        let (inner, after) ← Bracket.openAt m.loose c
        run m fuel
          { r with cursor := after, innermost := inner, outer := r.innermost :: r.outer }
    | ']' :: _ =>
      match r.close m c.bump with
      | .inl r => run m fuel r
      | .inr result => return result
    | '&' :: '&' :: _ => run m fuel (wait .common)
    | '-' :: '-' :: _ => run m fuel (wait .without)
    | '~' :: '~' :: _ => run m fuel (wait .apart)
    | _ => run m fuel (← r.readRange m c)

end ClassReading

/-- Reads a class of characters. The outer error is one of writing, the inner one says
that some part cannot be had. -/
def readClass (m : Modes) (c : Cursor) : Except Fault (Except Fault CharSet × Cursor) := do
  let (bracket, after) ← Bracket.openAt m.loose c
  ClassReading.run m c.rest.length ⟨after, bracket, [], none⟩

end Chip8.Text.Pattern
