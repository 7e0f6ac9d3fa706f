import Chip8.Error
import Chip8.Text.Pattern

/-!
# Log records

What a machine and its host tell about their work. A record has a source and a level; a
log shows the records of a source up to one level, that is of this level and of all more
important ones.
-/

namespace Chip8

inductive Level where
  | error
  | warn
  | info
  | debug
  | trace
deriving DecidableEq

namespace Level

/-- The place of a level, the most important one first. -/
def rank : Level → Nat
  | error => 0
  | warn => 1
  | info => 2
  | debug => 3
  | trace => 4

def name : Level → String
  | error => "ERROR"
  | warn => "WARN"
  | info => "INFO"
  | debug => "DEBUG"
  | trace => "TRACE"

end Level

inductive Source where
  | machine
  | host
deriving DecidableEq

def Source.name : Source → String
  | machine => "chip8::machine"
  | host => "chip8::host"

/-- Something worth telling. -/
inductive Record where
  /-- A program of a number of bytes was put into memory. -/
  | loaded (size : Nat)
  /-- The word at an address is about to be carried out. -/
  | executing (address : UInt16) (word : Word)
  /-- A step failed. -/
  | failed (error : Error)
  /-- The host starts, with the speed and scale that were asked for. -/
  | running (speed scale : UInt32)
deriving DecidableEq

namespace Record

@[inline]
def level : Record → Level
  | loaded _ => .debug
  | executing _ _ => .trace
  | failed _ => .warn
  | running _ _ => .info

@[inline]
def source : Record → Source
  | loaded _ => .machine
  | executing _ _ => .machine
  | failed _ => .machine
  | running _ _ => .host

def message : Record → String
  | loaded size => s!"Loaded ROM [size: {size}]"
  | executing address word => Text.Hex.address address ++ ": " ++ word.text
  | failed error => error.message
  | running speed scale => s!"Running [speed: {speed.toNat} Hz, scale: {scale.toNat}]"

/-- The level and the message. -/
def text (r : Record) : String := r.level.name ++ " " ++ r.message

end Record

/-- Which records are shown: those of each source up to a level, or none, and where there
is a pattern, those alone in whose message it occurs. -/
structure LogFilter where
  /-- The least important level shown of the machine. -/
  machine? : Option Level
  /-- The least important level shown of the host. -/
  host? : Option Level
  pattern? : Option Text.Pattern := none
deriving DecidableEq

namespace LogFilter

/-- The filter that shows the records of all sources up to a level. -/
def upTo (least : Level) : LogFilter := ⟨some least, some least, none⟩

/-- The filter that lets everything through. -/
def all : LogFilter := upTo .trace

/-- The filter that lets nothing through. -/
def nothing : LogFilter := ⟨none, none, none⟩

/-- The filter of a count of requests for more: warnings, then one level more for each
request. -/
def ofVerbosity (requests : Nat) : LogFilter :=
  match requests with
  | 0 => upTo .warn
  | 1 => upTo .info
  | 2 => upTo .debug
  | _ => upTo .trace

/-- The least important level shown of a source. -/
@[inline]
def least? (filter : LogFilter) : Source → Option Level
  | .machine => filter.machine?
  | .host => filter.host?

/-- Whether records of a source and a level can be shown. -/
@[inline]
def admits (filter : LogFilter) (source : Source) (level : Level) : Bool :=
  match filter.least? source with
  | none => false
  | some least => level.rank ≤ least.rank

/-- Whether the pattern, if there is one, occurs in the message of a record. -/
def fits (filter : LogFilter) (r : Record) : Bool :=
  match filter.pattern? with
  | none => true
  | some pattern => pattern.occursIn r.message

@[inline]
def shows (filter : LogFilter) (r : Record) : Bool :=
  filter.admits r.source r.level && filter.fits r

/-- Adds a record to a log, if it is shown. -/
@[inline]
def note (filter : LogFilter) (log : Array Record) (r : Record) : Array Record :=
  if filter.shows r then log.push r else log

theorem toList_note (filter : LogFilter) (log : Array Record) (r : Record) :
    (filter.note log r).toList = log.toList ++ [r].filter filter.shows := by
  unfold note
  split <;> rename_i h <;> simp [h]

/-- Everything is shown by the filter that lets everything through. -/
theorem shows_all (r : Record) : all.shows r = true := by
  cases r <;> rfl

end LogFilter

end Chip8
