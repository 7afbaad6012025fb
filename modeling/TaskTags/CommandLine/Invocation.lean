import TaskTags.CommandLine.Flag

/-!
Command lines as invocations of a command. Flags may stand before the command and behind it; where
both places give one, those behind the command count.
-/

namespace TaskTags.CommandLine

inductive Command where
  | listTasks (playbook : String) (showSkipped : Bool)
  | listTags (playbook : String)
  | check (tags : List String)
deriving DecidableEq, Inhabited

structure Invocation where
  command : Command
  tags : List String
  skipTags : List String
  extraVars : List String
  /-- How often more words are asked for. -/
  verbose : Nat
  diff : Bool
  noInherit : Bool
  json : Bool
  config : Option String
  noColor : Bool
deriving DecidableEq, Inhabited

inductive CommandName where
  | listTasks
  | listTags
  | check
deriving DecidableEq, Inhabited

namespace CommandName

def text : CommandName → String
  | .listTasks => "list-tasks"
  | .listTags => "list-tags"
  | .check => "check"

def all : List CommandName := [.listTasks, .listTags, .check]

def ofText? (s : String) : Option CommandName :=
  all.find? (·.text = s)

theorem ofText?_text (name : CommandName) : ofText? name.text = some name := by
  cases name <;> rfl

def flags (name : CommandName) : List Flag :=
  Flag.shared ++ if name = .listTasks then [.showSkipped] else []

/-- Whether a command may be given an argument behind others: a list has one playbook. -/
def admits (name : CommandName) (earlier : List String) (arg : String) : Bool :=
  name = .check || (earlier.isEmpty && arg ≠ "")

end CommandName

/-- What the next argument belongs to. -/
inductive Stage where
  /-- The flags in front of the command. -/
  | outer
  | command (name : CommandName)
  | help
deriving DecidableEq, Inhabited

/-- A command line that is read up to some argument. -/
structure Reading where
  stage : Stage
  /-- The flags in front of the command, once it is known. -/
  outer : Given
  /-- The flags of the present stage. -/
  given : Given
  /-- A flag whose value comes next. -/
  pending : Option Flag
  arguments : List String
  /-- Whether no more flags can come. -/
  ended : Bool
deriving Inhabited

namespace Reading

def start : Reading := ⟨.outer, [], [], none, [], false⟩

def grammar (r : Reading) : Grammar :=
  match r.stage with
  | .command name => ⟨name.flags, some name.text⟩
  | _ => ⟨Flag.shared, none⟩

def withFlags (r : Reading) (read : Given × Option Flag) : Reading :=
  { r with given := read.1, pending := read.2 }

/-- Takes an argument that is no flag. -/
def takePlain (r : Reading) (arg : String) : Except Stop Reading :=
  match r.stage with
  | .help => .ok { r with arguments := r.arguments ++ [arg] }
  | .command name =>
    if name.admits r.arguments arg then .ok { r with arguments := r.arguments ++ [arg] }
    else .error .misuse
  | .outer =>
    if r.ended then .error .misuse
    else if arg = "help" then .ok { r with stage := .help }
    else
      match CommandName.ofText? arg with
      | some name => .ok { r with stage := .command name, outer := r.given, given := [] }
      | none => .error .misuse

def take (r : Reading) (arg : String) : Except Stop Reading :=
  if r.ended || r.stage = .help then r.takePlain arg
  else
    match r.pending, Shape.of arg with
    | some flag, .plain =>
      (r.given.add r.grammar.command flag arg).map fun given => r.withFlags (given, none)
    | some _, _ => .error .misuse
    | none, .endOfFlags => .ok { r with ended := true }
    | none, .long text => (r.grammar.long r.given text).map r.withFlags
    | none, .short text => (r.grammar.short r.given text).map r.withFlags
    | none, .plain => r.takePlain arg

def helpOn : List String → Stop
  | [] => .help
  | [name] => if name = "help" || (CommandName.ofText? name).isSome then .help else .misuse
  | _ => .misuse

/-- The command of its arguments; a list needs a playbook. -/
def command (name : CommandName) (given : Given) (arguments : List String) :
    Except Stop Command :=
  match name, arguments with
  | .check, _ => .ok (.check arguments)
  | .listTasks, [playbook] => .ok (.listTasks playbook (given.has .showSkipped))
  | .listTags, [playbook] => .ok (.listTags playbook)
  | _, _ => .error .misuse

def finish (r : Reading) : Except Stop Invocation :=
  match r.stage, r.pending with
  | .help, _ => .error (helpOn r.arguments)
  | .command name, none => do
    let command ← command name r.given r.arguments
    let values := Given.innermost r.outer r.given
    let isOn (flag : Flag) := r.outer.has flag || r.given.has flag
    return {
      command
      tags := values .tags
      skipTags := values .skipTags
      extraVars := values .extraVars
      verbose := (values .verbose).length
      diff := isOn .diff
      noInherit := isOn .noInherit
      json := (values .output).getLast? = some "json"
      config := (values .config).getLast?
      noColor := isOn .noColor }
  | _, _ => .error .misuse

end Reading

def Invocation.parse (args : List String) : Except Stop Invocation := do
  (← args.foldlM Reading.take Reading.start).finish

end TaskTags.CommandLine
