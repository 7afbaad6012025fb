import TaskTags.CommandLine.Run

/-!
What a command line looks at outside of itself, so that it can be read before it is run.
-/

namespace TaskTags.CommandLine

def variableNames : List String :=
  ["NO_COLOR", "CLICOLOR", "CLICOLOR_FORCE", "RUSTIBLE_TAGS_CONFIG", "RUSTIBLE_TAGS_RUN",
    "RUSTIBLE_TAGS_SKIP", "RUSTIBLE_VERBOSITY", "RUSTIBLE_LOG_LEVEL"]

/-- The home that a table of accounts gives to the user with an identifier. -/
def homeOfUser? (accounts user : String) : Option String :=
  (accounts.splitOn "\n").findSome? fun line =>
    match line.splitOn ":" with
    | [_, _, identifier, _, _, home, _] =>
      if identifier = user && home ≠ "" then some home else none
    | _ => none

def Command.playbook? : Command → Option String
  | .listTasks path _ | .listTags path => some path
  | .check _ => none

def variableFile? (arg : String) : Option String :=
  match arg.toList with
  | '@' :: path => some (String.ofList path)
  | _ => none

/-- The paths that an invocation may read. -/
def Invocation.paths (env : Environment) (inv : Invocation) : List String :=
  Settings.paths env inv.config ++ inv.command.playbook?.toList ++
    inv.extraVars.filterMap variableFile?

def paths (env : Environment) (args : List String) : List String :=
  match Invocation.parse args with
  | .error _ => []
  | .ok inv => inv.paths env

/-- The file that a command line appends to, with what it reads known. -/
def logFile? (env : Environment) (args : List String) : Option String :=
  match Invocation.parse args with
  | .error _ => none
  | .ok inv =>
    match settingsOf env inv with
    | .error _ => none
    | .ok (settings, _) => logFileOf inv settings

end TaskTags.CommandLine
