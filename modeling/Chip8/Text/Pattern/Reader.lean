import Chip8.Text.Pattern.Bracket

/-!
# Reading patterns

A pattern is written as atoms and classes one after another, branches between bars, groups
in parentheses, and repetitions behind what they repeat. A group can have a name, which
has no meaning here, or modes of its own; modes without a group hold up to the end of the
group around them.

A pattern that is not well written is refused before one that asks for what cannot be had,
and that before one that is too big; `Pattern.read` says which.
-/

namespace Chip8.Text.Pattern

/-! ## Modes -/

/-- The letters that stand for modes. -/
inductive Flag where
  | ignoreCase
  | multiLine
  | dotAll
  | swapGreed
  | unicode
  | carriageReturns
  | loose
deriving DecidableEq

namespace Flag

/-- The mode of a letter. -/
def ofChar? : Char → Option Flag
  | 'i' => some ignoreCase
  | 'm' => some multiLine
  | 's' => some dotAll
  | 'U' => some swapGreed
  | 'u' => some unicode
  | 'R' => some carriageReturns
  | 'x' => some loose
  | _ => none

/-- Switches a mode on or off. Which of several stretches a repetition prefers makes no
difference to whether there is one. -/
def set (m : Modes) (on : Bool) : Flag → Modes
  | ignoreCase => { m with ignoreCase := on }
  | multiLine => { m with multiLine := on }
  | dotAll => { m with dotAll := on }
  | swapGreed => m
  | unicode => { m with unicode := on }
  | carriageReturns => { m with carriageReturns := on }
  | loose => { m with loose := on }

end Flag

/-- A letter that stands for a mode, where it is, and whether it switches the mode on;
without a letter, the dash that switches off what follows. -/
structure FlagItem where
  flag? : Option Flag
  span : Span
  on : Bool

/-- Reads letters and a dash up to a colon or a closing parenthesis, after some that have
been read, the latest one first. -/
def readFlags : List Char → Nat → List FlagItem → Except Fault (List FlagItem × Cursor)
  | [], n, _ => .error ⟨.flagUnexpectedEnd, ⟨n, n⟩, none⟩
  | c :: rest, n, before => do
    let span : Span := ⟨n, n + 1⟩
    let add (flag? : Option Flag) (on : Bool) (repeated : Cause) :
        Except Fault (List FlagItem) :=
      match before.find? fun item => item.flag? == flag? with
      | some item => .error ⟨repeated, span, some item.span⟩
      | none => .ok (⟨flag?, span, on⟩ :: before)
    if c = ':' || c = ')' then
      match before with
      | ⟨none, dash, _⟩ :: _ => .error ⟨.flagDanglingNegation, dash, none⟩
      | _ => .ok (before, ⟨c :: rest, n⟩)
    else if c = '-' then
      readFlags rest (n + 1) (← add none false .flagRepeatedNegation)
    else
      match Flag.ofChar? c with
      | none => .error ⟨.flagUnrecognized, span, none⟩
      | some flag =>
        let on := before.all fun item => item.flag?.isSome
        readFlags rest (n + 1) (← add (some flag) on .flagDuplicate)

/-- The modes with some of them switched, the earliest switch last. -/
def Modes.switch (m : Modes) (items : List FlagItem) : Modes :=
  items.foldr (fun item m => item.flag?.elim m (·.set m item.on)) m

/-! ## The state of reading -/

/-- A group that is not closed yet: what was being read around it, and where it begins. -/
structure Group where
  modes : Modes
  items : List (Option Pattern)
  branches : List Pattern
  start : Nat

/-- What has been read of a pattern. -/
structure Reading where
  cursor : Cursor
  modes : Modes := {}
  /-- The parts of the branch, the latest first; a switch of modes is no pattern. -/
  items : List (Option Pattern) := []
  /-- The finished branches of the group, the latest first. -/
  branches : List Pattern := []
  /-- The open groups, the innermost first. -/
  groups : List Group := []
  /-- The names of groups. -/
  names : List (List Char × Span) := []
  /-- Why the pattern is refused if it is well written. -/
  issue? : Option Refusal := none

namespace Reading

/-- The first of two issues, but a faulty part before edges of words. -/
def firstIssue : Option Refusal → Option Refusal → Option Refusal
  | none, issue? => issue?
  | some .unbuildable, some (.faulty fault) => some (.faulty fault)
  | some issue, _ => some issue

/-- Goes on behind a part, which may be one that cannot be had. -/
def add (r : Reading) (part : Except Refusal Pattern) (after : Cursor) : Reading :=
  match part with
  | .ok p => { r with cursor := after, items := some p :: r.items }
  | .error issue =>
    { r with
      cursor := after
      items := some nothing :: r.items
      issue? := firstIssue r.issue? (some issue) }

/-- The branch that is being read. -/
def branch (r : Reading) : Pattern := ofParts (r.items.reverse.filterMap id)

/-- What has been read of the innermost group. -/
def body (r : Reading) : Pattern := ofBranches (r.branch :: r.branches).reverse

/-- Goes on with the next branch. -/
def nextBranch (r : Reading) (after : Cursor) : Reading :=
  { r with cursor := after, items := [], branches := r.branch :: r.branches }

/-! ## Groups -/

/-- Goes on inside a group. -/
def enter (r : Reading) (start : Nat) (modes : Modes) (after : Cursor) : Reading :=
  { r with
    cursor := after
    modes := modes
    items := []
    branches := []
    groups := ⟨r.modes, r.items, r.branches, start⟩ :: r.groups }

/-- Goes on behind a group. -/
def leave (r : Reading) (c : Cursor) : Except Fault Reading :=
  match r.groups with
  | [] => .error (c.fault .groupUnopened)
  | g :: groups =>
    .ok { r with
      cursor := c.bump
      modes := g.modes
      items := some r.body :: g.items
      branches := g.branches
      groups := groups }

/-- Whether a character can stand in the name of a group. -/
def isNameChar (first : Bool) (c : Char) : Bool :=
  c.isAlpha || c == '_' || 0xaa ≤ c.toNat
    || (!first && (c.isDigit || c == '.' || c == '[' || c == ']'))

/-- Reads the name of a group up to the bracket behind it. -/
def readName (names : List (List Char × Span)) (c : Cursor) :
    Except Fault (List Char × Span × Cursor) :=
  let (first, behind) := c.collect false (isNameChar true)
  let (more, after) := behind.collect false (isNameChar false)
  let name := first ++ more
  let (name, after) := if first.isEmpty then ([], c) else (name, after)
  let span : Span := ⟨c.offset, after.offset⟩
  match after.head? with
  | none => .error ⟨.groupNameUnexpectedEnd, ⟨after.offset, after.offset⟩, none⟩
  | some '>' =>
    if name.isEmpty then .error ⟨.groupNameEmpty, span, none⟩
    else
      match names.find? fun n => n.1 == name with
      | some n => .error ⟨.groupNameDuplicate, span, some n.2⟩
      | none => .ok (name, span, after.bump)
  | some _ => .error (after.fault .groupNameInvalid)

/-- What begins a look at the text around a group. -/
def lookAroundMarks : List (List Char) :=
  [['?', '='], ['?', '!'], ['?', '<', '='], ['?', '<', '!']]

/-- Reads what opens a group: a parenthesis, with a name or with modes. Modes with no
colon behind them are switched here. -/
def openGroup (r : Reading) (c : Cursor) : Except Fault Reading := do
  let inner := c.next r.modes.loose
  if let some after := lookAroundMarks.findSome? inner.past? then
    throw (after.faultFrom c.offset .lookAround)
  match (inner.past? ['?', 'P', '<']).or (inner.past? ['?', '<']) with
  | some named =>
    let (name, span, after) ← readName r.names named
    return { r.enter c.offset r.modes after with names := (name, span) :: r.names }
  | none =>
    match inner.past? ['?'] with
    | none => return r.enter c.offset r.modes inner
    | some flags =>
      if flags.rest.isEmpty then throw (c.fault .groupUnclosed)
      let (items, closing) ← readFlags flags.rest flags.offset []
      let modes := r.modes.switch items
      if closing.head? == some ':' then return r.enter c.offset modes closing.bump
      if items.isEmpty then throw (inner.fault .repetitionMissing)
      return { r with cursor := closing.bump, modes := modes, items := none :: r.items }

/-! ## Repetitions -/

/-- Repeats the latest part. -/
def repeatLast (r : Reading) (c : Cursor) (least : Nat) (most? : Option Nat)
    (after : Cursor) :
    Except Fault Reading :=
  match r.items with
  | some p :: items =>
    .ok { r with cursor := after, items := some (repeated p least most?) :: items }
  | _ => .error (c.fault .repetitionMissing)

/-- The cursor behind a question mark, if there is one: a preference for few. -/
def pastPreference (c : Cursor) : Cursor := if c.head? == some '?' then c.bump else c

/-- Reads a number below 2³². -/
def readCount (loose : Bool) (c : Cursor) : Except Fault Nat × Cursor :=
  let first := (c.collect false isBlank).2
  let (digits, behind) := first.collect loose Char.isDigit
  let after := (behind.collect loose isBlank).2
  let span : Span := ⟨first.offset, behind.offset⟩
  if digits.isEmpty then (.error ⟨.countDecimalEmpty, span, none⟩, after)
  else
    let n := digits.foldl (fun n d => 10 * n + (d.toNat - 0x30)) 0
    if n < 0x100000000 then (.ok n, after) else (.error ⟨.decimalInvalid, span, none⟩, after)

/-- Reads one count, or the least and the most with a comma between them, of which the
most can be missing; `unclosed` is the fault of a pattern that ends before. -/
def readRange (loose : Bool) (unclosed : Cursor → Fault) (c : Cursor) :
    Except Fault (Nat × Option Nat × Cursor) := do
  if c.rest.isEmpty then throw (unclosed c)
  let (least, after) := readCount loose c
  if after.rest.isEmpty then throw (unclosed after)
  if after.head? != some ',' then
    let count ← least
    return (count, some count, after)
  let behind := after.next loose
  if behind.rest.isEmpty then throw (unclosed behind)
  if behind.head? == some '\x7d' then return (← least, none, behind)
  let least ← least
  let (most, closing) := readCount loose behind
  return (least, some (← most), closing)

/-- Reads a repetition with counts between braces. -/
def readCounts (r : Reading) (c : Cursor) : Except Fault Reading := do
  let loose := r.modes.loose
  let unclosed (stop : Cursor) : Fault := stop.faultFrom c.offset .countUnclosed
  if !(r.items.head?.any Option.isSome) then throw (c.fault .repetitionMissing)
  let (least, most?, closing) ← readRange loose unclosed (c.next loose)
  if closing.head? != some '\x7d' then throw (unclosed closing)
  let behind := pastPreference (closing.next loose)
  if most?.any (· < least) then throw (behind.faultFrom c.offset .countInvalid)
  r.repeatLast c least most? behind

/-! ## The whole -/

/-- Reads on to the end of the pattern. Every round reads at least one character, of which
there are `fuel` at most. -/
def run (fuel : Nat) (r : Reading) : Except Fault Reading :=
  let c := r.cursor.skip r.modes.loose
  match fuel, c.rest with
  | 0, _ | _, [] => .ok { r with cursor := c }
  | fuel + 1, sign :: _ => do
    match sign with
    | '(' => run fuel (← r.openGroup c)
    | ')' => run fuel (← r.leave c)
    | '|' => run fuel (r.nextBranch c.bump)
    | '[' =>
      let (set, after) ← readClass r.modes c
      run fuel (r.add ((set.map Pattern.one).mapError Refusal.faulty) after)
    | '?' => run fuel (← r.repeatLast c 0 (some 1) (pastPreference c.bump))
    | '*' => run fuel (← r.repeatLast c 0 none (pastPreference c.bump))
    | '+' => run fuel (← r.repeatLast c 1 none (pastPreference c.bump))
    | '\x7b' => run fuel (← r.readCounts c)
    | _ =>
      let (a, after) ← readAtom r.modes.loose c
      run fuel (r.add (a.pattern r.modes ⟨c.offset, after.offset⟩) after)

end Reading

/-- The parts that a pattern can have at most. -/
def mostParts : Nat := 327670

/-- Reads a pattern. -/
def read (written : String) : Except Refusal Pattern := do
  let r ←
    (Reading.run written.length ⟨⟨written.toList, 0⟩, {}, [], [], [], [], none⟩).mapError
    Refusal.faulty
  if let some g := r.groups.head? then
    throw (.faulty ⟨.groupUnclosed, ⟨g.start, g.start + 1⟩, none⟩)
  match r.issue? with
  | some (.faulty fault) => throw (.faulty fault)
  | issue? =>
    if mostParts < r.body.weight then throw .tooBig
    match issue? with
    | some issue => throw issue
    | none => return r.body

end Chip8.Text.Pattern
