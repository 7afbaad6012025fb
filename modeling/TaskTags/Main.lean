import TaskTags.CommandLine.Inputs

/-!
The program: reads what a command line looks at, runs it and prints the outcome.
-/

open TaskTags

namespace TaskTags.Main

def readPath (path : String) : IO PathState := do
  try
    return .file (← IO.FS.readFile path)
  catch e =>
    match e with
    | .noFileOrDirectory .. => return .missing
    | .inappropriateType .. => return .directory
    | e => return .unreadable (toString e)

def opensForAppend (path : String) : IO Bool := do
  try
    let _ ← IO.FS.Handle.mk path .append
    return true
  catch _ => return false

/-- The identifier of the user, as the system shows it to the program. -/
def userIdentifier? : IO (Option String) := do
  try
    let status ← IO.FS.readFile "/proc/self/status"
    return (status.splitOn "\n").findSome? fun line =>
      if line.startsWith "Uid:" then (line.splitOn "\t")[1]? else none
  catch _ => return none

/-- The home that the variable names, or else that of the account. -/
def homeDirectory? : IO (Option String) := do
  match (← IO.getEnv "HOME").filter (· ≠ "") with
  | some home => return some home
  | none =>
    try
      let accounts ← IO.FS.readFile "/etc/passwd"
      return (← userIdentifier?).bind (CommandLine.homeOfUser? accounts)
    catch _ => return none

/-- The system as it is when the program starts. Its readers say no more than that they fail. -/
def environmentOf (args : List String) : IO Environment := do
  let vars ← CommandLine.variableNames.filterMapM fun name => do
    return (← IO.getEnv name).map (name, ·)
  let env : Environment :=
    { vars, files := fun _ => .missing, canAppend := fun _ => true,
      homeDirectory? := ← homeDirectory?, isTerminal := ← (← IO.getStdout).isTty,
      remark := fun _ => "" }
  let states ← (CommandLine.paths env args).mapM fun path => return (path, ← readPath path)
  let env := { env with files := fun path => (states.lookup path).getD .missing }
  match CommandLine.logFile? env args with
  | none => return env
  | some path =>
    let isOpen ← opensForAppend path
    return { env with canAppend := fun _ => isOpen }

end TaskTags.Main

def main (args : List String) : IO UInt32 := do
  let outcome := CommandLine.run (← Main.environmentOf args) args
  IO.print outcome.stdout
  IO.eprint outcome.stderr
  return outcome.exitCode.toUInt32
