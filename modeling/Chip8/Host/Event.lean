import Chip8.Nibble

/-!
# Keyboard events

The host has an ordinary keyboard. Sixteen of its keys stand for the keypad, in the square

```text
1 2 3 4        1 2 3 C
Q W E R   as   4 5 6 D
A S D F        7 8 9 E
Z X C V        A 0 B F
```

Space pauses and resumes, but not by being held down, and Escape ends the program as
closing the window does. `Event.action?` tells what an event asks for, if anything.
-/

namespace Chip8.Host

inductive HostKey where
  /-- The key of a digit or a capital letter. -/
  | char (c : Char)
  | escape
  | space
  | other
deriving DecidableEq

namespace HostKey

/-- The key of a name. Letters are their own names and digits have `Num` before them. -/
def ofName (name : String) : HostKey :=
  match name.toList with
  | ['N', 'u', 'm', c] => if c.isDigit then .char c else .other
  | ['E', 's', 'c', 'a', 'p', 'e'] => .escape
  | ['S', 'p', 'a', 'c', 'e'] => .space
  | [c] => if c.isUpper then .char c else .other
  | _ => .other

end HostKey

/-- The keys of the keyboard that stand for the keys of the keypad, by number. -/
def layout : Bank Char :=
  #v['X', '1', '2', '3', 'Q', 'W', 'E', 'A', 'S', 'D', 'Z', 'C', '4', 'R', 'F', 'V']

/-- The key of the keypad that a key stands for. -/
def HostKey.keypadKey? : HostKey → Option Nibble
  | .char c => Nibble.all.find? fun k => layout.entry k == c
  | _ => none

/-- What the keyboard and the window tell the program. -/
inductive Event where
  /-- A key went down; it goes down again and again while it is held. -/
  | keyDown (key? : Option HostKey) (repeated : Bool)
  | keyUp (key? : Option HostKey)
  | quit
  | other
deriving DecidableEq

/-- What the program does about an event. -/
inductive Action where
  | setKey (key : Nibble) (down : Bool)
  | togglePause
  | quit
deriving DecidableEq

namespace Event

/-- What an event asks for. -/
def action? : Event → Option Action
  | .quit => some .quit
  | .keyDown (some .escape) _ => some .quit
  | .keyDown (some .space) false => some .togglePause
  | .keyDown (some key) _ => key.keypadKey?.map (.setKey · true)
  | .keyUp (some key) => key.keypadKey?.map (.setKey · false)
  | _ => none

end Event

end Chip8.Host
