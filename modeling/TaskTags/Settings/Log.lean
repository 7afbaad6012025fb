import TaskTags.Error
import TaskTags.Text.Blank

/-!
Levels and formats of log lines.
-/

namespace TaskTags

inductive LogLevel where
  | trace
  | debug
  | info
  | warn
  | error
deriving DecidableEq, Inhabited

namespace LogLevel

def name : LogLevel → String
  | .trace => "trace"
  | .debug => "debug"
  | .info => "info"
  | .warn => "warn"
  | .error => "error"

def all : List LogLevel := [.trace, .debug, .info, .warn, .error]

def ofName? (s : String) : Option LogLevel :=
  all.find? (·.name = s)

theorem ofName?_name (level : LogLevel) : ofName? level.name = some level := by
  cases level <;> rfl

def ofVerbosity : Nat → LogLevel
  | 0 => .warn
  | 1 => .info
  | 2 => .debug
  | _ => .trace

/-- Reads a level with blanks around it and letters of either case; `warning` is one as well. -/
def parse (s : String) : Except Error LogLevel :=
  let word := (Text.trim s).map Char.toLower
  match ofName? word with
  | some level => .ok level
  | none => if word = "warning" then .ok .warn else .error (.setting (.logLevel word))

end LogLevel

inductive LogFormat where
  | pretty
  | compact
  | json
  | full
deriving DecidableEq, Inhabited

namespace LogFormat

def name : LogFormat → String
  | .pretty => "pretty"
  | .compact => "compact"
  | .json => "json"
  | .full => "full"

def all : List LogFormat := [.pretty, .compact, .json, .full]

def ofName? (s : String) : Option LogFormat :=
  all.find? (·.name = s)

theorem ofName?_name (format : LogFormat) : ofName? format.name = some format := by
  cases format <;> rfl

end LogFormat
end TaskTags
