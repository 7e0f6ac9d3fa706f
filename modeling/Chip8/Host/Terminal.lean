import Chip8.Host.Session

/-!
# Sessions as text

On a terminal a session is a script. A line of the script is a turn: the nanoseconds since
the turn before and then its events, separated by blanks. `+Q` means that the key Q goes
down, `*Q` that it is held, `-Q` that it goes up, and `quit` that the window is closed.
The screen is drawn with a character for each pixel.
-/

namespace Chip8

namespace Host

/-- The words of a text, which blanks separate. -/
def words (text : List Char) : List (List Char) :=
  let parts := text.foldr (fun c parts =>
    if c.isWhitespace then [] :: parts
    else
      match parts with
      | [] => [[c]]
      | first :: rest => (c :: first) :: rest) [[]]
  parts.filter fun word => !word.isEmpty

/-- The event that a word of a script stands for. -/
def Event.ofWord : List Char → Event
  | '+' :: name => .keyDown (some (.ofName (String.ofList name))) false
  | '*' :: name => .keyDown (some (.ofName (String.ofList name))) true
  | '-' :: name => .keyUp (some (.ofName (String.ofList name)))
  | ['q', 'u', 'i', 't'] => .quit
  | _ => .other

/-- The turn that a line of a script stands for. No time passes in a turn that tells none. -/
def Turn.ofLine (line : String) : Turn :=
  match words line.toList with
  | [] => ⟨0, []⟩
  | elapsed :: events =>
    ⟨(String.ofList elapsed).toNat?.getD 0, events.map Event.ofWord⟩

end Host

namespace Screen

/-- A line of text for each row, with a mark for each pixel that is on. -/
def picture (s : Screen) : String :=
  String.join (s.rows.toList.map fun row =>
    String.ofList ((List.range width).map fun x => if row.getMsbD x then '#' else '.') ++ "\n")

end Screen

end Chip8
