import TaskTags.Environment
import TaskTags.Store.Basic
import TaskTags.Yaml.Json

/-!
Variables of the command line: a name with a value, or a file of them.
-/

namespace TaskTags.CommandLine

def variablesOfFile (env : Environment) (path : String) : Except Error Bindings := do
  let text ← (env.files path).read.mapError (Error.file .extraVars path)
  match Yaml.Document.jsonFields? text with
  | some fields => .ok fields
  | none => .error (.file .extraVars path .malformed)

/-- A value is YAML, or the text itself where that is not YAML. -/
def valueOfText (text : String) : Except Error Json :=
  ((Yaml.Value.parse? text).getD (.str text)).toJson.mapError Error.extraKey

def variablesOfArgument (env : Environment) (arg : String) : Except Error Bindings :=
  let name := arg.toList.takeWhile (· ≠ '=')
  match arg.toList, arg.toList.dropWhile (· ≠ '=') with
  | '@' :: path, _ => variablesOfFile env (String.ofList path)
  | _, _ :: value => do return [(String.ofList name, ← valueOfText (String.ofList value))]
  | _, [] => .error (.extraVariable arg)

/-- The variables of all arguments, those of a later one over those of an earlier one. -/
def extraVariables (env : Environment) (args : List String) : Except Error Bindings := do
  return Bindings.merge [] (← args.mapM (variablesOfArgument env)).flatten

end TaskTags.CommandLine
