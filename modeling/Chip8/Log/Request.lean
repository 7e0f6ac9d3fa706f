import Chip8.Log
import Chip8.Text.Blank
import Chip8.Text.Pattern.Reader

/-!
# Log requests

A user asks for records in a text: rules with commas between them, and a pattern behind a
slash. A rule is a level, which is for all sources, or the beginning of the names of
sources with a level behind an equals sign; without a level it asks for everything. For a
source the longest beginning of its name counts, and of rules for the same one the latest.
Who asks for nothing gets the errors. What cannot be understood is left out, and the user
is told.
-/

namespace Chip8

/-- A level for the sources whose names begin in some way; without one, nothing of them. -/
structure LogRule where
  beginning : String
  least? : Option Level
deriving DecidableEq

/-- What a user is told about a request. -/
inductive LogComplaint where
  /-- There is more than one slash. -/
  | tooManySlashes (request : String)
  /-- A rule, or its level, is not known. -/
  | notKnown (text : String)
  /-- The pattern cannot be used. -/
  | badPattern (written : String) (refusal : Text.Pattern.Refusal)
deriving DecidableEq

namespace LogComplaint

/-- What a user is told. -/
def message : LogComplaint → String
  | tooManySlashes request =>
    "warning: invalid logging spec '" ++ request ++ "', ignoring it (too many '/'s)"
  | notKnown text => "warning: invalid logging spec '" ++ text ++ "', ignoring it"
  | badPattern written refusal =>
    "warning: invalid regex filter - " ++ refusal.message written

end LogComplaint

/-- What a user asks for. -/
structure LogRequest where
  rules : List LogRule := []
  pattern? : Option Text.Pattern := none
  complaints : List LogComplaint := []
deriving DecidableEq

namespace LogRequest

/-- The level of a name, in letters of either case; `off` shows nothing. -/
def levelOfName? (name : String) : Option (Option Level) :=
  match name.toLower with
  | "off" => some none
  | "error" => some (some .error)
  | "warn" => some (some .warn)
  | "info" => some (some .info)
  | "debug" => some (some .debug)
  | "trace" => some (some .trace)
  | _ => none

/-- Reads a rule. -/
def readRule (text : String) : Except LogComplaint LogRule :=
  match text.splitOn "=" with
  | [name] =>
    match levelOfName? name with
    | some least? => .ok ⟨"", least?⟩
    | none => .ok ⟨name, some .trace⟩
  | [beginning, level] =>
    let level := Text.trim level
    if level.isEmpty then .ok ⟨beginning, some .trace⟩
    else
      match levelOfName? level with
      | some least? => .ok ⟨beginning, least?⟩
      | none => .error (.notKnown level)
  | _ => .error (.notKnown text)

/-- Adds a rule to a request. -/
def addRule (request : LogRequest) (text : String) : LogRequest :=
  match readRule text with
  | .ok rule => { request with rules := request.rules ++ [rule] }
  | .error complaint => { request with complaints := request.complaints ++ [complaint] }

/-- Reads rules with commas between them. -/
def ofRules (text : String) : LogRequest :=
  (((text.splitOn ",").map Text.trim).filter (!·.isEmpty)).foldl addRule {}

/-- Adds a pattern to a request. -/
def addPattern (request : LogRequest) (written : String) : LogRequest :=
  match Text.Pattern.read written with
  | .ok pattern => { request with pattern? := some pattern }
  | .error refusal =>
    { request with complaints := request.complaints ++ [.badPattern written refusal] }

/-- Reads a request. -/
def ofText (text : String) : LogRequest :=
  match text.splitOn "/" with
  | [rules] => ofRules rules
  | [rules, pattern] => (ofRules rules).addPattern pattern
  | _ => { complaints := [.tooManySlashes text] }

/-- The rules that hold: those of the request, or else one for the errors of all sources. -/
def effective (request : LogRequest) : List LogRule :=
  if request.rules.isEmpty then [⟨"", some .error⟩] else request.rules

/-- Whether a rule is for a source. -/
def covers (rule : LogRule) (source : String) : Bool :=
  rule.beginning.toList.isPrefixOf source.toList

/-- The better one of two rules for a source, the second one being later. -/
def better (best? : Option LogRule) (rule : LogRule) : Option LogRule :=
  match best? with
  | some best => if rule.beginning.length < best.beginning.length then best else rule
  | none => rule

/-- The rule of a source. -/
def ruleFor? (request : LogRequest) (source : String) : Option LogRule :=
  (request.effective.filter (covers · source)).foldl better none

/-- The filter that shows what a user asks for, if the sources have these names. -/
def filter (request : LogRequest) (name : Source → String) : LogFilter where
  machine? := (request.ruleFor? (name .machine)).bind LogRule.least?
  host? := (request.ruleFor? (name .host)).bind LogRule.least?
  pattern? := request.pattern?

end LogRequest

end Chip8
